import S7Comm.Theorems.LinkConnect
import S7Comm.Theorems.LinkScan
import S7Comm.Theorems.WriteFits

/-! Whole conversations of a client with the server: connecting, closing and calls, in any order. Client and server
    together are the store. Each call sees what the calls before it have done, whether these succeeded, failed halfway
    or were refused, and whether the client was connected anew in between. -/

namespace S7Comm
open Go

/-! ### Calls without a connection -/

section Off
variable {cfg : ServerConfig} {p : Nat} {mem : Memory} {addr : Address} {db : Nat}

/-- A chunk that is not sent. -/
theorem readChunk_off (hdb : addr.dbNumber = db) (hdble : db ≤ 65535) {offset n : Nat}
    (hoff : offset ≤ maxS7AnyByteOffset) (reqLen : Nat) (first : Bool) (result : Bytes) :
    Eff.Ends (AtRest p mem false) (readChunk (linkNet cfg false) addr reqLen first offset result n) fun r =>
      Eff.Failed r ∨ ∃ out, r = .ok (.error out) ∧ out.status ≠ .success := by
  unfold readChunk
  refine (chunkGate_atRest first).attempt_ok.bind_ok ?_
  rintro _ ⟨_, rfl, -⟩
  refine nextPDURef_atRest.bind_ok fun ref _ => ?_
  rw [hdb]
  by_cases hn : n ≤ 65535
  · rw [encodeReadVarRequest_eq ref ⟨hdble, hoff, hn⟩]
    refine (sendReceive_off _).attempt_failed.bind_ok ?_
    rintro _ ⟨e, rfl⟩
    exact Eff.ends_pure (.inr ⟨_, rfl, classifyOpError_ne_success e⟩)
  · obtain ⟨e, he⟩ := encodeReadVarRequest_fail ref addr.area db offset (Nat.not_le.mp hn)
    rw [he]
    exact (Eff.ends_fail _).mono fun r hr => .inl hr

theorem readArea_off (addr : Address) :
    Eff.Ends (AtRest p mem false) (readArea (linkNet cfg false) addr) fun r =>
      addr.size = 0 ∨ (ClientCall.readArea addr).Refused r := by
  by_cases hacc : addr.Accepted addr.size
  swap
  · obtain ⟨e, he⟩ := readArea_refused hacc
    intro st hst
    rw [he]
    exact ⟨hst, .inr (.inl ⟨e, rfl⟩)⟩
  obtain ⟨hvalid, hrange⟩ := hacc
  obtain ⟨db, start, size, hdb, hstart, hsize, hdble⟩ := validateAddress_ok hvalid
  have hlast := validateRangeEnd_ok hrange
  unfold readArea
  rw [hvalid, hrange]
  refine Eff.ends_ok.bind_ok fun _ _ => Eff.ends_ok.bind_ok fun _ _ => Eff.ends_get.bind_ok ?_
  rintro ⟨c, w⟩ -
  dsimp only
  obtain ⟨hsum, hall⟩ := planReadChunks_spec addr.size.toNat (maxChunkData_pos c.pduSize readVarRequestOverhead)
  cases hchunks : planReadChunks addr.size.toNat (maxChunkData c.pduSize readVarRequestOverhead) with
  | nil =>
    rw [hchunks, List.sum_nil] at hsum
    exact Eff.ends_pure (.inl (by omega))
  | cons n chunks =>
    rw [hchunks] at hsum hall
    have hn := (hall n List.mem_cons_self).1
    rw [List.sum_cons] at hsum
    unfold readChunks
    refine (readChunk_off hdb hdble (show addr.start.toNat ≤ maxS7AnyByteOffset by omega) _ _ _).bind ?_ ?_ ?_
    · rintro _ (⟨e, he⟩ | ⟨out, hout, hstatus⟩)
      · cases he
      · cases hout
        exact Eff.ends_pure (.inr (.inr ⟨out, rfl, hstatus⟩))
    · exact fun e _ => .inr (.inl ⟨e, rfl⟩)
    · rintro (⟨e, he⟩ | ⟨out, hout, -⟩)
      · cases he
      · cases hout

theorem writeChunk_off {start : Nat} {data : Bytes} (haddr : Writable addr db start data.length) {offset n : Nat}
    (hpos : 0 < n) (hle : offset + n ≤ data.length) (first : Bool) :
    Eff.Ends (AtRest p mem false) (writeChunk (linkNet cfg false) addr data first offset n) Eff.Failed := by
  have hlen : ((data.drop offset).take n).length = n := by
    rw [List.length_take, List.length_drop]
    omega
  unfold writeChunk
  refine (chunkGate_atRest first).bind_ok fun _ _ => ?_
  rw [sliceOf_of_le (by omega) hle, Nat.add_sub_cancel_left]
  refine Eff.ends_ok.bind_ok ?_
  rintro _ rfl
  refine nextPDURef_atRest.bind_ok fun ref _ => ?_
  rw [hlen]
  obtain ⟨-, req, hreq, -⟩ | ⟨-, e, he⟩ := encodeWriteVarRequest_chunk haddr hpos hle ref
  · rw [hreq]
    exact (sendReceive_off req).bind_failed _
  · rw [he]
    exact Eff.ends_fail _

theorem writeArea_off (addr : Address) (data : Bytes) :
    Eff.Ends (AtRest p mem false) (writeArea (linkNet cfg false) addr data) fun r => data = [] ∨ Eff.Failed r := by
  by_cases hacc : addr.Accepted data.length
  swap
  · obtain ⟨e, he⟩ := writeArea_refused hacc
    intro st hst
    rw [he]
    exact ⟨hst, .inr ⟨e, rfl⟩⟩
  obtain ⟨hvalid, hrange⟩ := hacc
  obtain ⟨db, start, -, hdb, hstart, -, hdble⟩ := validateAddress_ok hvalid
  have hlast := validateRangeEnd_ok hrange
  have haddr : Writable addr db start data.length := ⟨hdb, hdble, hstart, by omega⟩
  unfold writeArea
  rw [hvalid, hrange]
  refine Eff.ends_ok.bind_ok fun _ _ => Eff.ends_ok.bind_ok fun _ _ => ctxErr_atRest.bind_ok fun _ _ =>
    Eff.ends_get.bind_ok ?_
  rintro ⟨c, w⟩ -
  dsimp only
  obtain ⟨hsum, hall⟩ := planReadChunks_spec data.length (maxChunkData_pos c.pduSize writeVarRequestOverhead)
  cases hchunks : planReadChunks data.length (maxChunkData c.pduSize writeVarRequestOverhead) with
  | nil =>
    rw [hchunks, List.sum_nil] at hsum
    exact Eff.ends_pure (.inl (List.eq_nil_of_length_eq_zero hsum.symm))
  | cons n chunks =>
    rw [hchunks] at hsum hall
    rw [List.sum_cons] at hsum
    unfold writeChunks
    refine Eff.Ends.mono ?_ fun r hr => .inr hr
    exact (writeChunk_off haddr (hall n List.mem_cons_self).1 (by omega) true).bind_failed _

theorem bitGate_off (addr : BitAddress) :
    Eff.Ends (AtRest p mem false) (bitGate (linkNet cfg false) addr) Eff.Failed := by
  unfold bitGate
  obtain hvalid | ⟨e, hvalid⟩ := validateBitAddress_cases addr
  · rw [hvalid]
    refine Eff.ends_ok.bind_ok fun _ _ => Eff.ends_get.bind_ok ?_
    rintro ⟨c, w⟩ hst
    dsimp only
    rw [if_pos (by simp [show c.connected = false from hst.connected])]
    exact Eff.ends_fail _
  · rw [hvalid]
    exact (Eff.ends_lift ⟨e, rfl⟩).bind_failed _

theorem validateRangeProbeRequest_cases (req : RangeProbeRequest) :
    validateRangeProbeRequest req = .ok () ∨ ∃ e, validateRangeProbeRequest req = .fail e := by
  unfold validateRangeProbeRequest
  split_ifs <;> simp

theorem probeReadableRanges_off (fuel : Nat) (req : RangeProbeRequest) :
    Eff.Ends (AtRest p mem false) (probeReadableRanges (linkNet cfg false) fuel req) fun r =>
      (ClientCall.probeReadableRanges fuel req).Idle ∨ Eff.Failed r := by
  unfold probeReadableRanges
  obtain hvalid | ⟨e, hvalid⟩ := validateRangeProbeRequest_cases req
  swap
  · rw [hvalid]
    exact ((Eff.ends_lift ⟨e, rfl⟩).bind_failed _).mono fun r hr => .inr hr
  rw [hvalid]
  refine Eff.ends_ok.bind_ok fun _ _ => ?_
  cases hoffsets : probeOffsets req.stop req.scanStep fuel req.start with
  | none => exact Eff.ends_pure (.inl (.inl hoffsets))
  | some offsets =>
    have hscan : Eff.Ends (AtRest p mem false) (scanAt (linkNet cfg false) req offsets) fun r =>
        offsets = [] ∨ Eff.Failed r := by
      unfold scanAt
      refine Eff.ends_get.bind_ok ?_
      rintro ⟨c, w⟩ hst
      dsimp only
      cases offsets with
      | nil => exact Eff.ends_pure (.inl rfl)
      | cons o offsets =>
        rw [if_pos (by simp [show c.connected = false from hst.connected])]
        exact (Eff.ends_fail _).mono fun r hr => .inr hr
    refine hscan.bind ?_ ?_ ?_
    · rintro a (rfl | ⟨e, he⟩)
      · exact Eff.ends_pure (.inl (.inr hoffsets))
      · cases he
    · exact fun e _ => .inr ⟨e, rfl⟩
    · rintro (rfl | ⟨e, he⟩)
      · exact .inl (.inr hoffsets)
      · cases he

end Off

/-! ### Calls -/

section Perform
variable {cfg : ServerConfig} {p : Nat} {mem : Memory}

theorem listAllBlocks_atRest {on : Bool} :
    Eff.Ends (AtRest p mem on) (listAllBlocks (linkNet cfg on)) (ClientCall.listAllBlocks.Refused) :=
  listBlockTypes_atRest _ []

/-- Without a connection a call changes nothing, and reports errors unless it has nothing to ask for. -/
theorem perform_off (call : ClientCall) :
    Eff.Ends (AtRest p mem false) (call.perform (linkNet cfg false)) fun r => call.Idle ∨ call.Refused r := by
  have hrefused {call : ClientCall} (h : Eff.Ends (AtRest p mem false) (call.perform (linkNet cfg false)) call.Refused) :
      Eff.Ends (AtRest p mem false) (call.perform (linkNet cfg false)) fun r => call.Idle ∨ call.Refused r :=
    h.mono fun r hr => .inr hr
  cases call with
  | readArea addr => exact readArea_off addr
  | writeArea addr data => exact writeArea_off addr data
  | readBit addr => exact hrefused ((bitGate_off addr).bind_failed _)
  | writeBit addr v => exact hrefused ((bitGate_off addr).bind_failed _)
  | identify => exact hrefused identify_atRest
  | getCPUState => exact hrefused getCPUState_atRest
  | getProtectionLevel => exact hrefused getProtectionLevel_atRest
  | readDiagBufferRaw => exact hrefused readDiagBufferRaw_atRest
  | readDiagBuffer => exact hrefused readDiagBuffer_atRest
  | listBlocks bt => exact hrefused (listBlocks_atRest bt)
  | blockCounts => exact hrefused blockCounts_atRest
  | listAllBlocks => exact hrefused listAllBlocks_atRest
  | getBlockInfo bt num => exact hrefused (getBlockInfo_atRest bt num)
  | uploadBlock bt num => exact hrefused (uploadBlock_atRest bt num)
  | probeReadableRanges fuel req => exact probeReadableRanges_off fuel req

/-- On a connection a call is one of the store, and leaves a connection that is at rest. -/
theorem perform_on (hp : 30 ≤ p) (hp' : p ≤ 4096) (call : ClientCall) {st : Client × Link}
    (hst : AtRest p mem true st) :
    ∃ mem', AtRest p mem' true (call.perform (linkNet cfg true) st).2 ∧
      call.Meets p mem (call.perform (linkNet cfg true) st).1 mem' := by
  obtain ⟨c, w⟩ := st
  have hw : Linked p c w := hst.linked rfl
  have hmem : w.session.mem = mem := hst.mem_eq
  -- The calls that the server refuses leave the memory as it is.
  have hrefused {call : ClientCall} (h : Eff.Ends (AtRest p mem true) (call.perform (linkNet cfg true)) call.Refused)
      (hmeets : ∀ r, call.Refused r → call.Meets p mem r mem) :
      ∃ mem', AtRest p mem' true (call.perform (linkNet cfg true) (c, w)).2 ∧
        call.Meets p mem (call.perform (linkNet cfg true) (c, w)).1 mem' :=
    ⟨mem, (h _ hst).1, hmeets _ (h _ hst).2⟩
  cases call with
  | readArea addr =>
    obtain ⟨out, hread, hout⟩ := readArea_atRest cfg (show 25 ≤ p by omega) hp' mem addr
    obtain ⟨hst', hr⟩ := hread _ hst
    exact ⟨mem, hst', rfl, hr ▸ hout⟩
  | writeArea addr data =>
    obtain ⟨r, c', w', hrun, hw', hwrites⟩ := writeArea_linked cfg hp hp' addr data hw
    rw [hmem] at hwrites
    refine ⟨w'.session.mem, ?_, ?_⟩
    · show AtRest p _ true (writeArea (serverNet cfg) addr data (c, w)).2
      rw [hrun]
      exact ⟨hw'.connected, fun _ => hw', rfl⟩
    · show Writes p mem addr data (writeArea (serverNet cfg) addr data (c, w)).1 _
      rw [hrun]
      exact hwrites
  | readBit addr =>
    obtain ⟨r, c', w', hrun, hw', hsession, hreads⟩ := readBit_linked cfg hp addr hw
    rw [hmem] at hreads
    refine ⟨mem, ?_, rfl, ?_⟩
    · show AtRest p _ true (readBit (serverNet cfg) addr (c, w)).2
      rw [hrun]
      exact ⟨hw'.connected, fun _ => hw', by rw [← hmem, ← hsession]⟩
    · show ReadsBit mem addr (readBit (serverNet cfg) addr (c, w)).1
      rw [hrun]
      exact hreads
  | writeBit addr v =>
    obtain ⟨r, c', w', hrun, hw', hwrites⟩ := writeBit_linked cfg hp addr v hw
    rw [hmem] at hwrites
    refine ⟨w'.session.mem, ?_, ?_⟩
    · show AtRest p _ true (writeBit (serverNet cfg) addr v (c, w)).2
      rw [hrun]
      exact ⟨hw'.connected, fun _ => hw', rfl⟩
    · show WritesBit mem addr v (writeBit (serverNet cfg) addr v (c, w)).1 _
      rw [hrun]
      exact hwrites
  | probeReadableRanges fuel req =>
    obtain ⟨hst', hscans⟩ := probeReadableRanges_atRest (show 25 ≤ p by omega) hp' fuel req _ hst
    exact ⟨mem, hst', rfl, hscans⟩
  | identify => exact hrefused identify_atRest fun _ h => ⟨rfl, h⟩
  | getCPUState => exact hrefused getCPUState_atRest fun _ h => ⟨rfl, h⟩
  | getProtectionLevel => exact hrefused getProtectionLevel_atRest fun _ h => ⟨rfl, h⟩
  | readDiagBufferRaw => exact hrefused readDiagBufferRaw_atRest fun _ h => ⟨rfl, h⟩
  | readDiagBuffer => exact hrefused readDiagBuffer_atRest fun _ h => ⟨rfl, h⟩
  | listBlocks bt => exact hrefused (listBlocks_atRest bt) fun _ h => ⟨rfl, h⟩
  | blockCounts => exact hrefused blockCounts_atRest fun _ h => ⟨rfl, h⟩
  | listAllBlocks => exact hrefused listAllBlocks_atRest fun _ h => ⟨rfl, h⟩
  | getBlockInfo bt num => exact hrefused (getBlockInfo_atRest bt num) fun _ h => ⟨rfl, h⟩
  | uploadBlock bt num => exact hrefused (uploadBlock_atRest bt num) fun _ h => ⟨rfl, h⟩

end Perform

/-! ### Conversations -/

section Converse
variable {cfg : ServerConfig} {opts : Options} {p : Nat} {mem : Memory} {on : Bool} {st : ClientSession Unit × Link}

/-- What a call that was made has to do with the store. -/
def Made.Sound (p : Nat) (m : Made) : Prop :=
  (m.connected = true → m.call.Meets p m.before m.result m.after) ∧
    (m.connected = false → m.after = m.before ∧ (m.call.Idle ∨ m.call.Refused m.result))

theorem Between.atRest (h : Between opts p mem on st) : AtRest p mem on (st.1.client opts, st.2) := by
  refine ⟨?_, h.linked, h.mem_eq⟩
  unfold ClientSession.client
  rw [h.conn]
  cases on <;> rfl

/-- A call keeps the client connected, or not connected. -/
theorem onClient_between (h : Between opts p mem on st) {α : Type} {x : Net Link → ClientM Link α} {mem' : Memory}
    (hx : AtRest p mem' on (x (linkNet cfg on) (st.1.client opts, st.2)).2) :
    Between opts p mem' on (onClient (linkEnv cfg) opts x st).2 ∧
      (onClient (linkEnv cfg) opts x st).1 = (x (linkNet cfg on) (st.1.client opts, st.2)).1 := by
  obtain ⟨s, w⟩ := st
  have hconn : s.conn = if on then some () else none := h.conn
  have hnet : (linkEnv cfg).net s.conn = linkNet cfg on := by
    unfold linkNet
    rw [hconn]
  unfold onClient
  dsimp only
  rw [hnet]
  obtain ⟨r, c, w', hrun⟩ : ∃ r c w', x (linkNet cfg on) (s.client opts, w) = (r, (c, w')) := ⟨_, _, _, rfl⟩
  rw [hrun] at hx ⊢
  have hc : c.connected = on := hx.connected
  dsimp only
  refine ⟨⟨?_, fun hon => ?_, hx.mem_eq⟩, rfl⟩
  · rw [hc, hconn]
    cases on <;> rfl
  · subst hon
    have hl := hx.linked rfl
    refine ⟨?_, hl.client, hl.session, hl.idle⟩
    unfold ClientSession.client
    dsimp only
    rw [hc, hconn]
    rfl

theorem Between.new (w : Link) : Between opts p w.session.mem false ({}, w) := ⟨rfl, fun hon => (by cases hon), rfl⟩

theorem Between.isSome_conn (h : Between opts p mem on st) : st.1.conn.isSome = on := by
  rw [h.conn]
  cases on <;> rfl

/-- One call of a client, connected or not. -/
theorem call_between (hp : 30 ≤ agreedPDU cfg opts) (call : ClientCall) (h : Between opts (agreedPDU cfg opts) mem on st) :
    ∃ r mem' st', onClient (linkEnv cfg) opts call.perform st = (r, st') ∧
      Between opts (agreedPDU cfg opts) mem' on st' ∧ Made.Sound (agreedPDU cfg opts) ⟨call, on, r, mem, mem'⟩ := by
  have hp' : agreedPDU cfg opts ≤ 4096 := Nat.le_trans (Nat.min_le_right _ _) cfg.le_max
  have hperform : ∃ mem', AtRest (agreedPDU cfg opts) mem' on (call.perform (linkNet cfg on) (st.1.client opts, st.2)).2 ∧
      Made.Sound (agreedPDU cfg opts) ⟨call, on, (call.perform (linkNet cfg on) (st.1.client opts, st.2)).1, mem, mem'⟩ := by
    cases on with
    | true =>
      obtain ⟨mem', hst', hmeets⟩ := perform_on hp hp' call h.atRest
      exact ⟨mem', hst', fun _ => hmeets, fun hon => (by cases hon)⟩
    | false =>
      obtain ⟨hst', hr⟩ := perform_off call _ h.atRest
      exact ⟨mem, hst', fun hon => (by cases hon), fun _ => ⟨rfl, hr⟩⟩
  obtain ⟨mem', hst', hsound⟩ := hperform
  obtain ⟨hnext, hresult⟩ := onClient_between (x := fun net => call.perform net) h hst'
  exact ⟨_, mem', _, Prod.ext hresult rfl, hnext, hsound⟩

/-- The actions one after the other, by induction on them. -/
theorem converse_between (hopts : opts.Usable) (hp : 30 ≤ agreedPDU cfg opts) (actions : List ClientAction)
    (h : Between opts (agreedPDU cfg opts) mem on st) :
    ∃ made st' mem', converse cfg opts actions st = (made, st') ∧
      Between opts (agreedPDU cfg opts) mem' (connectedAfter on actions) st' ∧
      (made.map fun m => (m.call, m.connected)) = callsOf on actions ∧ Chained mem made mem' ∧
      ∀ m ∈ made, m.Sound (agreedPDU cfg opts) := by
  induction actions generalizing mem on st with
  | nil => exact ⟨[], st, mem, rfl, h, rfl, rfl, List.forall_mem_nil _⟩
  | cons action actions ih =>
    cases action with
    | connect =>
      obtain ⟨s, w⟩ := st
      obtain ⟨hand, st', hrun, hst'⟩ := connect_link hopts s w
      rw [show w.session.mem = mem from h.mem_eq] at hst'
      unfold converse
      rw [hrun]
      exact ih hst'
    | close =>
      unfold converse
      exact ih (closeSession_link h)
    | call call =>
      obtain ⟨r, mem₁, st₁, hcall, hst₁, hsound₁⟩ := call_between hp call h
      obtain ⟨made, st', mem', hrun, hst', hcalls, hchain, hsound⟩ := ih hst₁
      unfold converse
      rw [hcall]
      dsimp only
      rw [hrun, h.isSome_conn, h.mem_eq, hst₁.mem_eq]
      exact ⟨_, st', mem', rfl, hst', congrArg _ hcalls, ⟨rfl, hchain⟩, List.forall_mem_cons.mpr ⟨hsound₁, hsound⟩⟩

/-- Every conversation of a client with the server is one with the store. A new client connects, closes and makes calls
    in any order. A call on a connection reads and writes the memory as the store does, and is refused where the store
    or the server has nothing for it; a call without a connection changes nothing. Each call finds the memory as the
    call before it has left it. -/
theorem conversation_store (cfg : ServerConfig) (opts : Options) (hopts : opts.Usable)
    (hp : 30 ≤ agreedPDU cfg opts) (actions : List ClientAction) (w : Link) :
    ∃ made last, converse cfg opts actions ({}, w) = (made, last) ∧
      made.map (fun m => (m.call, m.connected)) = callsOf false actions ∧
      Chained w.session.mem made last.2.session.mem ∧ ∀ m ∈ made, m.Sound (agreedPDU cfg opts) := by
  obtain ⟨made, last, mem', hrun, hlast, hcalls, hchain, hsound⟩ := converse_between hopts hp actions (Between.new w)
  exact ⟨made, last, hrun, hcalls, hlast.mem_eq.symm ▸ hchain, hsound⟩

end Converse

/-- A client that writes to DB1 in one session and reads it in another. -/
def writeThenRead : List ClientAction :=
  [.call .identify, .connect, .call (.writeArea ⟨areaDB, 1, 0, 0⟩ [0x01, 0x02, 0x03]), .call .identify, .close, .connect,
    .call (.readArea ⟨areaDB, 1, 0, 3⟩)]

theorem conversation_store_reconnect :
    ∃ made last, converse defaultConfig {} writeThenRead ({}, { session := dbSession }) = (made, last) ∧
      made.map (·.connected) = [false, true, true, true] ∧ Chained dbSession.mem made last.2.session.mem ∧
      (∀ m ∈ made, m.Sound 480) ∧ last.2.session.mem.readSpan ⟨areaDB, 1, 0, 3⟩ 0 3 = some [0x01, 0x02, 0x03] := by
  obtain ⟨made, last, hrun, hcalls, hchain, hsound⟩ :=
    conversation_store defaultConfig {} ⟨rfl, by decide, by decide⟩ (by decide) writeThenRead { session := dbSession }
  have hmem : (converse defaultConfig {} writeThenRead ({}, { session := dbSession })).2.2.session.mem.readSpan
      ⟨areaDB, 1, 0, 3⟩ 0 3 = some [0x01, 0x02, 0x03] := by
    decide +kernel
  rw [hrun] at hmem
  refine ⟨made, last, hrun, ?_, hchain, hsound, hmem⟩
  have := congrArg (List.map Prod.snd) hcalls
  rwa [List.map_map] at this

end S7Comm
