import S7Comm.Theorems.AtRest
import S7Comm.Theorems.Spans

/-! Reads and writes of a connected client are those of the store. A read comes to one and the same result as long as the
    memory is the same, whatever references its requests have, so that a scan, which reads every offset several times,
    finds its reads in agreement. -/

namespace S7Comm
open Go

/-! ### Refused addresses -/

section Refused
variable {σ : Type} {net : Net σ} {addr : Address}

theorem readArea_refused (h : ¬addr.Accepted addr.size) : ∃ e, ∀ st, readArea net addr st = (.fail e, st) := by
  unfold readArea
  obtain hvalid | ⟨e, hvalid⟩ := validateAddress_cases addr
  · obtain hrange | ⟨e, hrange⟩ := validateRangeEnd_cases addr.start addr.size
    · exact absurd ⟨hvalid, hrange⟩ h
    · refine ⟨e, fun st => ?_⟩
      rw [hvalid, Eff.bind_ok (Eff.lift_apply _ _), hrange, Eff.bind_fail (Eff.lift_apply _ _)]
  · refine ⟨e, fun st => ?_⟩
    rw [hvalid, Eff.bind_fail (Eff.lift_apply _ _)]

theorem writeArea_refused {data : Bytes} (h : ¬addr.Accepted data.length) :
    ∃ e, ∀ st, writeArea net addr data st = (.fail e, st) := by
  unfold writeArea
  obtain hvalid | ⟨e, hvalid⟩ := validateAddress_cases addr
  · obtain hrange | ⟨e, hrange⟩ := validateRangeEnd_cases addr.start data.length
    · exact absurd ⟨hvalid, hrange⟩ h
    · refine ⟨e, fun st => ?_⟩
      rw [hvalid, Eff.bind_ok (Eff.lift_apply _ _), hrange, Eff.bind_fail (Eff.lift_apply _ _)]
  · refine ⟨e, fun st => ?_⟩
    rw [hvalid, Eff.bind_fail (Eff.lift_apply _ _)]

theorem bitGate_refused {addr : BitAddress} (h : validateBitAddress addr ≠ .ok ()) :
    ∃ e, ∀ st, bitGate net addr st = (.fail e, st) := by
  unfold bitGate
  obtain hvalid | ⟨e, hvalid⟩ := validateBitAddress_cases addr
  · exact absurd hvalid h
  · refine ⟨e, fun st => ?_⟩
    rw [hvalid, Eff.bind_fail (Eff.lift_apply _ _)]

end Refused

/-! ### ReadArea -/

section Read
variable {cfg : ServerConfig} {p : Nat} {mem : Memory} {addr : Address} {db : Nat}

/-- A chunk is read, or it is refused where the store has no such span. -/
theorem readChunk_atRest (hp : p ≤ 4096) (hdb : addr.dbNumber = db) (hdble : db ≤ 65535) {offset n : Nat}
    (hoff : offset ≤ maxS7AnyByteOffset) (hpos : 0 < n) (hfits : n + 24 ≤ p) (reqLen : Nat) (result : Bytes) :
    ∃ x, (∀ first, Eff.Ends (AtRest p mem true) (readChunk (linkNet cfg true) addr reqLen first offset result n)
        fun r => r = .ok x) ∧
      ((∃ piece, x = .ok piece ∧ mem.readSpan addr offset n = some piece) ∨
        ∃ out, x = .error out ∧ out.status = .rejected ∧ mem.readSpan addr offset n = none) := by
  have haddr : Addressable db offset n := ⟨hdble, hoff, by omega⟩
  obtain ⟨r, hr, hwf, hle, hcase⟩ := itemResult_readSpan mem haddr hdb hpos
  have hsize : (readVarResultBytes [r]).length = 4 + r.data.length := by
    simp [length_readVarResultBytes, readVarResultsSize, readVarResultSize]
  obtain ⟨x, hanswer, hx⟩ : ∃ x, readAnswer reqLen result n [funcReadVar, 1] (readVarResultBytes [r]) = .ok x ∧
      ((∃ piece, x = .ok piece ∧ mem.readSpan addr offset n = some piece) ∨
        ∃ out, x = .error out ∧ out.status = .rejected ∧ mem.readSpan addr offset n = none) := by
    obtain ⟨hcode, hread⟩ | ⟨hcode, hnone⟩ := hcase
    · exact ⟨_, (readAnswer_link reqLen result hwf hle (by omega)).1 hcode, .inl ⟨_, rfl, hread⟩⟩
    · obtain ⟨out, hanswer, hstatus, -⟩ := readAnswer_refused reqLen result n hwf (by omega) hcode
      exact ⟨_, hanswer, .inr ⟨out, rfl, hstatus, hnone⟩⟩
  refine ⟨x, fun first => ?_, hx⟩
  unfold readChunk
  refine (chunkGate_atRest first).attempt_ok.bind_ok ?_
  rintro _ ⟨_, rfl, -⟩
  refine nextPDURef_atRest.bind_ok fun ref _ => ?_
  rw [hdb, encodeReadVarRequest_eq ref haddr]
  have hreq : (message rosctrJob ref ([funcReadVar, 1] ++ byteItem addr.area db offset n) []).length = 24 :=
    length_readRequest ref
  have hserve : handle cfg (message rosctrJob ref ([funcReadVar, 1] ++ byteItem addr.area db offset n) []) ⟨mem, p⟩ = _ :=
    handle_read cfg haddr hr (show 18 + r.data.length ≤ p by omega) (by omega)
  have hsend := sendReceive_served ref (by rw [hreq]; omega) hserve
  rw [responseSections_ackData (by rw [hsize]; simp; omega)] at hsend
  refine (hsend.mono fun r hr => ⟨_, hr, rfl⟩).attempt_ok.bind_ok ?_
  rintro _ ⟨_, rfl, rfl⟩
  dsimp only
  rw [hanswer]
  exact Eff.ends_lift rfl

/-- The chunk loop, by induction on the chunks. -/
theorem readChunks_atRest (hp : p ≤ 4096) (hdb : addr.dbNumber = db) (hdble : db ≤ 65535) {reqLen : Nat}
    {chunks : List Nat} (hall : ∀ n ∈ chunks, 0 < n ∧ n + 24 ≤ p) (offset : Nat)
    (hend : offset + chunks.sum ≤ maxS7AnyByteOffset + 1) (result : Bytes) :
    ∃ out, (∀ first, Eff.Ends (AtRest p mem true) (readChunks (linkNet cfg true) addr reqLen chunks first offset result)
        fun r => r = .ok out) ∧
      (∀ d, mem.readSpan addr offset chunks.sum = some d → out = readOutcome reqLen (result ++ d)) ∧
      (chunks = [] → out = readOutcome reqLen result) ∧
      (chunks ≠ [] → mem.readSpan addr offset chunks.sum = none → out.status = .rejected) := by
  induction chunks generalizing offset result with
  | nil =>
    refine ⟨_, fun _ => Eff.ends_pure rfl, fun d hd => ?_, fun _ => rfl, fun h => absurd rfl h⟩
    rw [List.eq_nil_of_length_eq_zero (length_readSpan hd), List.append_nil]
  | cons n chunks ih =>
    obtain ⟨⟨hpos, hn⟩, hrest⟩ := List.forall_mem_cons.mp hall
    rw [List.sum_cons] at hend
    obtain ⟨x, hchunk, ⟨piece, rfl, hpiece⟩ | ⟨out, rfl, hstatus, hnone⟩⟩ := readChunk_atRest hp
      hdb hdble (show offset ≤ maxS7AnyByteOffset by omega) hpos hn reqLen result
    · obtain ⟨out, hrun, hfound, hnil, hmissing⟩ := ih hrest (offset + n) (by omega) (result ++ piece)
      refine ⟨out, fun first => ?_, fun d hd => ?_, fun h => absurd h (List.cons_ne_nil _ _), fun _ hnone => ?_⟩
      · unfold readChunks
        refine ((hchunk first).mono fun r hr => ⟨_, hr, rfl⟩).bind_ok ?_
        rintro _ rfl
        exact hrun false
      · rw [List.sum_cons, readSpan_add, hpiece, Option.bind_some, Option.map_eq_some_iff] at hd
        obtain ⟨d', hd', rfl⟩ := hd
        rw [hfound d' hd', List.append_assoc]
      · rw [List.sum_cons, readSpan_add, hpiece, Option.bind_some, Option.map_eq_none_iff] at hnone
        refine hmissing ?_ hnone
        rintro rfl
        -- Nothing after the last chunk: the empty span is there, as the chunk is.
        rw [List.sum_nil] at hnone
        have hsome : (mem.readSpan addr offset (n + 0)).isSome := by
          rw [Nat.add_zero, hpiece]
          rfl
        have := isSome_readSpan_right hsome
        rw [hnone] at this
        cases this
    · refine ⟨out, fun first => ?_, fun d hd => ?_, fun h => absurd h (List.cons_ne_nil _ _), fun _ _ => hstatus⟩
      · unfold readChunks
        refine ((hchunk first).mono fun r hr => ⟨_, hr, rfl⟩).bind_ok ?_
        rintro _ rfl
        exact Eff.ends_pure rfl
      · rw [List.sum_cons, readSpan_add, hnone] at hd
        cases hd

/-- Reading, from any state at rest, is reading from the store. -/
theorem readArea_atRest (cfg : ServerConfig) (hp : 25 ≤ p) (hp' : p ≤ 4096) (mem : Memory) (addr : Address) :
    ∃ out, Eff.Ends (AtRest p mem true) (readArea (linkNet cfg true) addr) (fun r => r = out) ∧ Reads mem addr out := by
  by_cases hacc : addr.Accepted addr.size
  · obtain ⟨hvalid, hrange⟩ := hacc
    obtain ⟨db, start, size, hdb, hstart, hsize, hdble⟩ := validateAddress_ok hvalid
    have hlast := validateRangeEnd_ok hrange
    obtain ⟨hsum, hall⟩ := planReadChunks_spec size (show 0 < p - 24 by omega)
    obtain ⟨out, hrun, hfound, hnil, hmissing⟩ := readChunks_atRest hp' hdb
      hdble (fun n hn => ⟨(hall n hn).1, by have := (hall n hn).2; omega⟩) start (by omega) []
    rw [hsum] at hfound hmissing
    refine ⟨.ok out, ?_, fun h => absurd ⟨hvalid, hrange⟩ h, fun _ hzero => ?_, fun _ _ d hd => ?_, fun _ hpos hnone => ?_⟩
    · unfold readArea
      rw [hvalid, hrange]
      refine (Eff.ends_lift (R := fun r => ∃ a, r = .ok a ∧ True) ⟨(), rfl, trivial⟩).bind_ok fun _ _ =>
        (Eff.ends_lift (R := fun r => ∃ a, r = .ok a ∧ True) ⟨(), rfl, trivial⟩).bind_ok fun _ _ =>
        Eff.ends_get.bind_ok ?_
      rintro ⟨c, w⟩ hst
      have hc : c.pduSize = p := (hst.linked rfl).client
      dsimp only
      rw [hc, show maxChunkData p readVarRequestOverhead = p - 24 from maxChunkData_eq hp, hstart, hsize,
        Int.toNat_natCast, Int.toNat_natCast]
      exact hrun true
    · obtain rfl : size = 0 := by omega
      have hout := hnil rfl
      exact ⟨out, rfl, by rw [hout]; rfl, by rw [hout]; rfl⟩
    · rw [hstart, hsize, Int.toNat_natCast, Int.toNat_natCast] at hd
      have hout := hfound d hd
      rw [List.nil_append] at hout
      refine ⟨out, rfl, ?_, by rw [hout]; rfl⟩
      rw [hout]
      unfold readOutcome classifyReadOutcome
      dsimp only
      rw [length_readSpan hd]
      split_ifs <;> first | rfl | omega
    · rw [hstart, hsize, Int.toNat_natCast, Int.toNat_natCast] at hnone
      refine ⟨out, rfl, hmissing ?_ hnone⟩
      intro hnil'
      rw [hnil', List.sum_nil] at hsum
      omega
  · obtain ⟨e, he⟩ := readArea_refused hacc
    refine ⟨.fail e, fun st hst => by rw [he]; exact ⟨hst, rfl⟩, fun _ => ⟨e, rfl⟩, fun h => absurd h hacc,
      fun h => absurd h hacc, fun h => absurd h hacc⟩

end Read

/-! ### WriteArea -/

section Write
variable (cfg : ServerConfig) {p : Nat} {c : Client} {w : Link} {addr : Address} {db start : Nat} {data : Bytes}

/-- A chunk is stored whole, or the call ends with the memory as it was. -/
theorem writeChunk_linked (hw : Linked p c w) (haddr : Writable addr db start data.length) {offset n : Nat} (hpos : 0 < n)
    (hle : offset + n ≤ data.length) (first : Bool) :
    ∃ r c' w', writeChunk (serverNet cfg) addr data first offset n (c, w) = (r, (c', w')) ∧ Linked p c' w' ∧
      (Eff.Failed r ∧ w'.session.mem = w.session.mem ∧
          ¬(Sendable p n ∧ w.session.mem.Takes addr (start + offset + n)) ∨
        r = .ok () ∧ (w.session.mem.readSpan addr (start + offset) n).isSome ∧
          w'.session.mem = storeAt w.session.mem addr.key (start + offset) ((data.drop offset).take n)) := by
  obtain ⟨hdb, hdble, hstart, hlast⟩ := haddr
  obtain ⟨ref, pduRef, href⟩ : ∃ ref pduRef, nextPDURef (c, w) = (.ok ref, ({ c with pduRef }, w)) :=
    ⟨_, _, nextPDURef_apply c w⟩
  obtain ⟨chunk, hchunk⟩ : ∃ chunk, (data.drop offset).take n = chunk := ⟨_, rfl⟩
  obtain rfl : chunk.length = n := by
    rw [← hchunk]
    simp
    omega
  have hslice : sliceOf data offset (offset + chunk.length) = .ok chunk := by
    rw [sliceOf_of_le (by omega) hle, Nat.add_sub_cancel_left, hchunk]
  have hint : addr.start + (offset : Int) = ((start + offset : Nat) : Int) := by
    rw [hstart]
    rfl
  have hw' : Linked p { c with pduRef } w := ⟨hw.connected, hw.client, hw.session, hw.idle⟩
  unfold writeChunk
  rw [hchunk, Eff.bind_ok (chunkGate_link cfg first), hslice, Eff.bind_ok (Eff.lift_apply _ _), Eff.bind_ok href, hdb,
    hint]
  by_cases hbits : chunk.length * 8 ≤ 65535
  swap
  · obtain ⟨e, he⟩ := encodeWriteVarRequest_fail ref ⟨addr.area, db, ((start + offset : Nat) : Int), chunk.length⟩ hbits
    rw [he]
    exact ⟨_, _, w, rfl, hw', .inl ⟨⟨_, rfl⟩, rfl, fun h => hbits h.1.1⟩⟩
  have haddr : Addressable db (start + offset) chunk.length := ⟨hdble, by omega, by omega⟩
  rw [encodeWriteVarRequest_eq ref haddr hbits]
  obtain ⟨req, hreq⟩ : ∃ req, message rosctrJob ref ([funcWriteVar, 1] ++ byteItem addr.area db (start + offset) chunk.length)
      (writeSection chunk) = req := ⟨_, rfl⟩
  have hlen : req.length = writeVarRequestOverhead + chunk.length + chunk.length % 2 := hreq ▸ length_writeRequest ref chunk
  obtain ⟨code, s', hserve, hpdu, hok, hrefused⟩ := handle_bytes cfg w.session ref hdb haddr hpos hbits
  rw [hreq] at hserve
  rw [hreq]
  by_cases hlong : p > 0 ∧ req.length > p
  · obtain ⟨e, -, he⟩ : ∃ e, _ ∧ sendReceive (serverNet cfg) req ref ({ c with pduRef }, w) =
        (.fail e, ({ c with pduRef }, w)) := sendReceive_unsent fun h => h.2 (by rw [hw'.client]; exact hlong)
    rw [hlen] at hlong
    exact ⟨_, _, w, Eff.bind_fail he, hw', .inl ⟨⟨e, rfl⟩, rfl, fun h => h.1.2 hlong⟩⟩
  have hsend := sendReceive_link cfg ref hw'.idle hw'.connected (by rw [hw'.client]; exact hlong) hserve
  rw [responseSections_ackData (by simp)] at hsend
  dsimp only
  rw [Eff.bind_ok hsend]
  refine ⟨_, _, _, rfl, ⟨hw.connected, hw.client, hpdu.trans hw.session, hw.idle.after _ _ _⟩, ?_⟩
  obtain ⟨hparse, hfail⟩ := parseWriteVarResponse_single code
  by_cases hcode : code = retCodeSuccess
  · exact .inr ⟨hparse hcode, (hok hcode).1, (hok hcode).2⟩
  · exact .inl ⟨hfail hcode, (hrefused hcode).1, fun h => (hrefused hcode).2 h.2⟩

/-- The chunk loop of a write, by induction on the chunks: the first bytes are stored, and all of them exactly when the
    loop ends without an error. -/
theorem writeChunks_linked (haddr : Writable addr db start data.length) {chunks : List Nat} (hpos : ∀ n ∈ chunks, 0 < n)
    (offset : Nat) (hsum : offset + chunks.sum = data.length) (first : Bool) (hw : Linked p c w) :
    ∃ r c' w' n, writeChunks (serverNet cfg) addr data chunks first offset (c, w) = (r, (c', w')) ∧ Linked p c' w' ∧
      (r = .ok () ∨ Eff.Failed r) ∧ n ≤ chunks.sum ∧ (r = .ok () ↔ n = chunks.sum) ∧
      w'.session.mem = storeAt w.session.mem addr.key (start + offset) ((data.drop offset).take n) ∧
      (0 < n → (w.session.mem.readSpan addr (start + offset) n).isSome) ∧
      (w.session.mem.Takes addr (start + data.length) → (∀ n ∈ chunks, Sendable p n) → r = .ok ()) := by
  induction chunks generalizing c w first offset with
  | nil => exact ⟨.ok (), c, w, 0, rfl, hw, .inl rfl, Nat.le_refl 0, by simp, by simp, by simp, fun _ _ => rfl⟩
  | cons n chunks ih =>
    obtain ⟨hn, hrest⟩ := List.forall_mem_cons.mp hpos
    rw [List.sum_cons] at hsum
    obtain ⟨r, c₁, w₁, hchunk, hw₁, ⟨⟨e, rfl⟩, hmem, hnot⟩ | ⟨rfl, hfits, hmem⟩⟩ := writeChunk_linked cfg hw haddr hn
      (show offset + n ≤ data.length by omega) first
    · refine ⟨.fail e, c₁, w₁, 0, Eff.bind_fail hchunk, hw₁, .inr ⟨e, rfl⟩, Nat.zero_le _, ?_, by simp [hmem], by simp, ?_⟩
      · rw [List.sum_cons]
        constructor
        · intro h
          cases h
        · omega
      · intro htakes hsend
        exact absurd ⟨hsend n List.mem_cons_self, htakes.mono (by omega)⟩ hnot
    · obtain ⟨r, c', w', k, hrun, hw', hr, hk, hiff, hmem', hfits', hok⟩ :=
        ih hrest (offset + n) (by omega) false hw₁
      have hlen : ((data.drop offset).take n).length = n := by
        rw [List.length_take, List.length_drop]
        omega
      have hshape : w₁.session.mem.shape = w.session.mem.shape := by rw [hmem, shape_storeAt]
      have hfits₂ : (w.session.mem.readSpan addr (start + offset) (n + k)).isSome := by
        by_cases hzero : k = 0
        · rw [hzero]
          exact hfits
        · have hmore : (w.session.mem.readSpan addr (start + offset + n) k).isSome := by
            refine readSpan_kept (fun key s h => by rw [← hshape]; exact h) ?_
            have := hfits' (Nat.pos_of_ne_zero hzero)
            rwa [← Nat.add_assoc] at this
          obtain ⟨a, ha⟩ := Option.isSome_iff_exists.mp hfits
          obtain ⟨b, hb⟩ := Option.isSome_iff_exists.mp hmore
          rw [readSpan_add, ha, Option.bind_some, hb]
          rfl
      refine ⟨r, c', w', n + k, (Eff.bind_ok hchunk).trans hrun, hw', hr, ?_, ?_, ?_, fun _ => hfits₂, ?_⟩
      · rw [List.sum_cons]
        omega
      · rw [hiff, List.sum_cons]
        omega
      · obtain ⟨old, hold⟩ := Option.isSome_iff_exists.mp hfits₂
        have hkey := readSpan_key hold
        obtain ⟨-, key, reg, hkey', hreg, hend, -⟩ := readSpan_eq_some.mp hold
        rw [hkey] at hkey'
        cases hkey'
        have hstore := storeAt_append hreg (start + offset) ((data.drop offset).take n) ((data.drop (offset + n)).take k)
          (by
            rw [List.length_append, hlen, List.length_take, List.length_drop]
            omega)
        rw [hmem', hmem, ← Nat.add_assoc]
        rw [hlen] at hstore
        rw [hstore, ← List.drop_drop, ← List.take_add]
      · intro htakes hsend
        refine hok ?_ (List.forall_mem_cons.mp hsend).2
        exact htakes.kept fun key s h => by rw [hshape]; exact h

/-- Writing is writing to the store, and it leaves a link. -/
theorem writeArea_linked (hp : 30 ≤ p) (hp' : p ≤ 4096) (addr : Address) (data : Bytes) (hw : Linked p c w) :
    ∃ r c' w', writeArea (serverNet cfg) addr data (c, w) = (r, (c', w')) ∧ Linked p c' w' ∧
      Writes p w.session.mem addr data r w'.session.mem := by
  by_cases hacc : addr.Accepted data.length
  swap
  · obtain ⟨e, he⟩ := writeArea_refused hacc
    exact ⟨.fail e, c, w, he _, hw, .inr ⟨e, rfl⟩, fun _ => ⟨⟨e, rfl⟩, rfl⟩, fun h => absurd h hacc,
      fun h => absurd h hacc⟩
  obtain ⟨hvalid, hrange⟩ := hacc
  obtain ⟨db, start, -, hdb, hstart, -, hdble⟩ := validateAddress_ok hvalid
  have hlast := validateRangeEnd_ok hrange
  have hchunk : maxChunkData p writeVarRequestOverhead = p - 28 :=
    maxChunkData_eq (show 28 < p from Nat.lt_of_lt_of_le (by decide) hp)
  obtain ⟨hsum, hall⟩ := planReadChunks_spec data.length (show 0 < p - 28 by omega)
  have haddr : Writable addr db start data.length := ⟨hdb, hdble, hstart, by omega⟩
  obtain ⟨r, c', w', n, hrun, hlinked, hr, hle, hiff, hmem, hfits, hok⟩ :=
    writeChunks_linked cfg haddr (fun n hn => (hall n hn).1) 0 (by omega) true hw
  rw [Nat.add_zero] at hfits
  rw [Nat.add_zero, List.drop_zero] at hmem
  rw [hsum] at hle hiff
  refine ⟨r, c', w', ?_, hlinked, hr, fun h => absurd ⟨hvalid, hrange⟩ h, fun _ => ⟨n, hle, ?_, ?_, hiff⟩, ?_⟩
  · unfold writeArea
    rw [hvalid, Eff.bind_ok (Eff.lift_apply _ _), hrange, Eff.bind_ok (Eff.lift_apply _ _),
      Eff.bind_ok (show netErr (serverNet cfg).ctxErr (c, w) = (.ok (), (c, w)) from rfl), Eff.bind_ok (Eff.get_apply _)]
    dsimp only
    rw [hw.client, hchunk]
    exact hrun
  · rw [hstart, Int.toNat_natCast]
    exact hmem
  · rw [hstart, Int.toNat_natCast]
    exact hfits
  · intro _ heven htakes
    rw [hstart, Int.toNat_natCast] at htakes
    refine hok htakes fun n hn => ?_
    have hchunk := (hall n hn).2
    exact ⟨by omega, by omega⟩

end Write

/-! ### Bits -/

section Bits
variable (cfg : ServerConfig) {p : Nat} {c : Client} {w : Link}

theorem bitGate_linked (hw : Linked p c w) {addr : BitAddress} (hvalid : validateBitAddress addr = .ok ()) :
    bitGate (serverNet cfg) addr (c, w) = (.ok (), (c, w)) := by
  unfold bitGate
  rw [hvalid, Eff.bind_ok (Eff.lift_apply _ _), Eff.bind_ok (Eff.get_apply _)]
  dsimp only
  rw [if_neg (by simp [hw.connected])]
  rfl

/-- The client takes the bit of an answer, or reports the refusal. -/
theorem bitAnswer_refused {r : ReadVarResult} (hwf : WellFormed r) (hle : r.data.length ≤ 8191)
    (hcode : r.returnCode ≠ retCodeSuccess) : ∃ e, bitAnswer [funcReadVar, 1] (readVarResultBytes [r]) = .fail e := by
  have hparse : parseReadVarResponse [funcReadVar, 1] (readVarResultBytes [r]) = .ok [r.item] :=
    parseReadVarResponse_eq (by simp) (by simpa using hwf) (by simpa using hle)
  have herr : returnCodeError r.item.returnCode =
      some (.s7 { code := r.item.returnCode, message := itemReturnCodeString r.item.returnCode }) := if_neg hcode
  unfold bitAnswer
  rw [hparse]
  simp only [herr]
  exact ⟨_, rfl⟩

/-- Reading a bit is reading it from the store. -/
theorem readBit_linked (hp : 30 ≤ p) (addr : BitAddress) (hw : Linked p c w) :
    ∃ r c' w', readBit (serverNet cfg) addr (c, w) = (r, (c', w')) ∧ Linked p c' w' ∧ w'.session = w.session ∧
      ReadsBit w.session.mem addr r := by
  by_cases hvalid : validateBitAddress addr = .ok ()
  swap
  · obtain ⟨e, he⟩ := bitGate_refused hvalid
    exact ⟨.fail e, c, w, Eff.bind_fail (he _), hw, rfl, fun _ => ⟨e, rfl⟩, fun h => absurd h hvalid,
      fun h => absurd h hvalid⟩
  have hgate := bitGate_linked cfg hw hvalid
  obtain ⟨db, o, k, haddr, ho, hk⟩ := validateBitAddress_ok hvalid
  obtain ⟨area, harea⟩ : ∃ area, addr.area = area := ⟨_, rfl⟩
  rw [harea] at haddr
  subst haddr
  obtain ⟨ref, pduRef, href⟩ : ∃ ref pduRef, nextPDURef (c, w) = (.ok ref, ({ c with pduRef }, w)) :=
    ⟨_, _, nextPDURef_apply c w⟩
  have henc : encodeReadVarBitRequest ref ⟨area, db.toNat, o, k⟩ =
      .ok (message rosctrJob ref ([funcReadVar, 1] ++ bitItem area db o k) []) := by
    unfold encodeReadVarBitRequest
    rw [encodeS7AnyBit_eq area db ho hk, Outcome.ok_bind, encodeMessage_eq (by simp) (by simp)]
  obtain ⟨r, hr, hwf, hle, hcase⟩ := itemResult_readBit w.session.mem ho hk
  have hserve : handle cfg (message rosctrJob ref ([funcReadVar, 1] ++ bitItem area db o k) []) w.session = _ :=
    handle_read_item cfg (by simp) (parseVarSpecs_bitItem funcReadVar ho hk) hr (by
      have := hw.session
      omega) (by omega)
  have hw' : Linked p { c with pduRef } w := ⟨hw.connected, hw.client, hw.session, hw.idle⟩
  obtain ⟨w', hsend, hlinked, hsession⟩ := hw'.exchange cfg ref (by rw [length_message]; simp; omega) hserve hw.session
  have hsize : (readVarResultBytes [r]).length = 4 + r.data.length := by
    simp [length_readVarResultBytes, readVarResultsSize, readVarResultSize]
  rw [responseSections_ackData (by rw [hsize]; simp; omega)] at hsend
  have hrun : readBit (serverNet cfg) ⟨area, db.toNat, o, k⟩ (c, w) =
      (bitAnswer [funcReadVar, 1] (readVarResultBytes [r]), ({ c with pduRef }, w')) := by
    unfold readBit BitAddress.s7Any
    rw [Eff.bind_ok hgate, Eff.bind_ok href]
    dsimp only
    rw [henc, asValidation_ok, Eff.bind_ok (Eff.lift_apply _ _), Eff.bind_ok hsend]
    rfl
  refine ⟨_, _, w', hrun, hlinked, hsession, fun h => absurd hvalid h, fun _ b hb => ?_, fun _ hnone => ?_⟩
  · obtain ⟨b', rfl, hb'⟩ | ⟨-, hnone⟩ := hcase
    · rw [bitAnswer_bitResult]
      have : some [b] = some [b'] := hb.symm.trans hb'
      cases this
      rfl
    · cases hb.symm.trans hnone
  · obtain ⟨b', -, hb'⟩ | ⟨hcode, -⟩ := hcase
    · cases hb'.symm.trans hnone
    · exact bitAnswer_refused hwf (by omega) hcode

/-- Writing a bit is writing it to the store. -/
theorem writeBit_linked (hp : 30 ≤ p) (addr : BitAddress) (v : Bool) (hw : Linked p c w) :
    ∃ r c' w', writeBit (serverNet cfg) addr v (c, w) = (r, (c', w')) ∧ Linked p c' w' ∧
      WritesBit w.session.mem addr v r w'.session.mem := by
  by_cases hvalid : validateBitAddress addr = .ok ()
  swap
  · obtain ⟨e, he⟩ := bitGate_refused hvalid
    exact ⟨.fail e, c, w, Eff.bind_fail (he _), hw, fun _ => ⟨⟨e, rfl⟩, rfl⟩, .inr ⟨⟨e, rfl⟩, rfl⟩,
      fun h => absurd h hvalid⟩
  have hgate := bitGate_linked cfg hw hvalid
  obtain ⟨db, o, k, haddr, ho, hk⟩ := validateBitAddress_ok hvalid
  obtain ⟨area, harea⟩ : ∃ area, addr.area = area := ⟨_, rfl⟩
  rw [harea] at haddr
  subst haddr
  obtain ⟨ref, pduRef, href⟩ : ∃ ref pduRef, nextPDURef (c, w) = (.ok ref, ({ c with pduRef }, w)) :=
    ⟨_, _, nextPDURef_apply c w⟩
  have henc : encodeWriteVarBitRequest ref ⟨area, db.toNat, o, k⟩ v =
      .ok (message rosctrJob ref ([funcWriteVar, 1] ++ bitItem area db o k)
        [0x00, dataTransportSizeBit, 0x00, 0x01, if v then 1 else 0, 0x00]) := by
    unfold encodeWriteVarBitRequest
    rw [encodeS7AnyBit_eq area db ho hk, Outcome.ok_bind]
    exact encodeMessage_eq (by simp) (by simp)
  obtain ⟨code, s', hserve, hpdu, hok, hrefused⟩ :=
    handle_bit w.session ref ho hk v
  have hw' : Linked p { c with pduRef } w := ⟨hw.connected, hw.client, hw.session, hw.idle⟩
  obtain ⟨w', hsend, hlinked, hsession⟩ := hw'.exchange cfg ref (by rw [length_message]; simp; omega) hserve
    (hpdu.trans hw.session)
  rw [responseSections_ackData (by simp)] at hsend
  have hrun : writeBit (serverNet cfg) ⟨area, db.toNat, o, k⟩ v (c, w) =
      (parseWriteVarResponse [funcWriteVar, 1] [code], ({ c with pduRef }, w')) := by
    unfold writeBit BitAddress.s7Any
    rw [Eff.bind_ok hgate, Eff.bind_ok href]
    dsimp only
    rw [henc, asValidation_ok, Eff.bind_ok (Eff.lift_apply _ _), Eff.bind_ok hsend]
    rfl
  obtain ⟨hparse, hfail⟩ := parseWriteVarResponse_single code
  rw [← hsession] at hok hrefused
  by_cases hcode : code = retCodeSuccess
  · exact ⟨_, _, w', hrun, hlinked, fun h => absurd hvalid h, .inl ⟨hparse hcode, hok hcode⟩, fun _ _ => hparse hcode⟩
  · obtain ⟨hsame, hnot⟩ := hrefused hcode
    exact ⟨_, _, w', hrun, hlinked, fun h => absurd hvalid h, .inr ⟨hfail hcode, hsame⟩,
      fun _ htakes => absurd htakes hnot⟩

end Bits
end S7Comm
