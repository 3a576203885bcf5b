import S7Comm.Theorems.Shared
import S7Comm.Theorems.Spans

/-! `ReadArea` on a shared server. The chunks of one read are served one by one, and others may write in between, so
    a read is not one snapshot of the region: each chunk is a snapshot of its own. -/

namespace S7Comm
open Go

/-- The piece is what memory `t.1` holds in the span. -/
def SpanRead (addr : Address) (span : Nat × Nat) (t : Memory × Bytes) : Prop :=
  t.1.readSpan addr span.1 span.2 = some t.2

/-- The steps have changed nothing. -/
def Unchanged (steps : List (Memory × Memory)) : Prop := ∀ step ∈ steps, step.2 = step.1

theorem Unchanged.append {a b : List (Memory × Memory)} (ha : Unchanged a) (hb : Unchanged b) : Unchanged (a ++ b) :=
  fun step h => (List.mem_append.mp h).elim (ha step) (hb step)

theorem Unchanged.single (m : Memory) : Unchanged [(m, m)] := by
  intro step h
  rw [List.mem_singleton.mp h]

theorem Unchanged.nil : Unchanged [] := fun _ h => absurd h List.not_mem_nil

/-! ### Chunks -/

section Chunks
variable {cfg : ServerConfig} {id p : Nat} {c : Client} {w : SharedLink id} {addr : Address} {db : Nat}

/-- Client and session have one PDU size, and nothing is due. -/
structure SharedLinked (p : Nat) (c : Client) (w : SharedLink id) : Prop where
  connected : c.connected = true
  client : c.pduSize = p
  session : w.server.pduSize id = p
  ready : w.Ready

/-- A chunk is a snapshot of its span, or the read ends with what it has or with nothing. -/
theorem readChunk_shared (hw : SharedLinked p c w) (hp : p ≤ 4096) (hdb : addr.dbNumber = db) (hdble : db ≤ 65535)
    {offset n : Nat} (hoff : offset ≤ maxS7AnyByteOffset) (hpos : 0 < n) (hfits : n + 24 ≤ p) (reqLen : Nat) (first : Bool) (result : Bytes) :
    ∃ r c' w', readChunk (sharedNet cfg id) addr reqLen first offset result n (c, w) = (.ok r, (c', w')) ∧
      ((∃ out last, r = .error out ∧ out.status ≠ .success ∧ (out.data = [] ∨ out.data = result) ∧
          w.Extends cfg w' last ∧ Unchanged last ∧ ¬(w.Calm ∧ (w.server.mem.readSpan addr offset n).isSome)) ∨
        ∃ m piece, r = .ok piece ∧ SpanRead addr (offset, n) (m, piece) ∧ w.Extends cfg w' [(m, m)] ∧
          SharedLinked p c' w' ∧ w'.turns = w.turns.tail) := by
  unfold readChunk
  obtain hgate | ⟨⟨e, hgate⟩, hfault⟩ := chunkGate_shared c w first
  swap
  · rw [Eff.bind_ok (Eff.attempt_fail hgate)]
    exact ⟨_, c, w, rfl, .inl ⟨_, [], rfl, (unfinished_newFailedReadResult reqLen e).status, .inl rfl, .refl w, .nil,
      fun h => hfault ⟨hw.ready.due, h.1⟩⟩⟩
  have haddr : Addressable db offset n := ⟨hdble, hoff, by omega⟩
  obtain ⟨ref, pduRef, href⟩ : ∃ ref pduRef, nextPDURef (c, w) = (.ok ref, ({ c with pduRef }, w)) :=
    ⟨_, _, nextPDURef_apply c w⟩
  rw [Eff.bind_ok (Eff.attempt_ok hgate)]
  dsimp only
  rw [Eff.bind_ok href, hdb, encodeReadVarRequest_eq ref haddr]
  dsimp only
  obtain ⟨req, hreq⟩ : ∃ req,
      message rosctrJob ref ([funcReadVar, 1] ++ byteItem addr.area db offset n) [] = req := ⟨_, rfl⟩
  have hlen : req.length = 24 := by
    rw [← hreq]
    exact length_readRequest ref
  have hreqFits : Fits { c with pduRef } req := ⟨hw.connected, by rw [hlen, hw.client]; omega⟩
  -- The server answers with the result of the item in the memory it has, and leaves that memory alone.
  have hserve (m : Memory) : ∃ r, handle cfg req ⟨m, w.server.pduSize id⟩ =
        (.ok (some (ackData ref 0 0 [funcReadVar, 1] (readVarResultBytes [r])), true), ⟨m, w.server.pduSize id⟩) ∧
      WellFormed r ∧ r.data.length ≤ n ∧
      (r.returnCode = retCodeSuccess ∧ m.readSpan addr offset n = some r.data ∨
        r.returnCode ≠ retCodeSuccess ∧ m.readSpan addr offset n = none) := by
    obtain ⟨r, hr, hwf, hle, hcase⟩ := itemResult_readSpan m haddr hdb hpos
    rw [← hreq]
    have hs : (⟨m, w.server.pduSize id⟩ : Session).pduSize = p := hw.session
    exact ⟨r, handle_read cfg haddr hr (by rw [hs]; omega) (by omega), hwf, hle, hcase⟩
  obtain ⟨r, w', hsend, hex⟩ := sendReceive_shared hw.ready { c with pduRef } ref fun m =>
    ⟨_, _, (hserve m).choose_spec.1⟩
  rw [hreq]
  cases hex with
  | unserved e hfault hext =>
    rw [Eff.bind_ok (Eff.attempt_fail hsend)]
    exact ⟨_, _, w', rfl, .inl ⟨_, [], rfl, (unfinished_newFailedReadResult reqLen e).status, .inl rfl, hext, .nil,
      fun h => hfault ⟨hreqFits, h.1⟩⟩⟩
  | @unacknowledged e hfault m out s hkept hserved hext =>
    obtain ⟨r, hr, -⟩ := hserve m
    rw [hr] at hserved
    cases hserved
    rw [Eff.bind_ok (Eff.attempt_fail hsend)]
    exact ⟨_, _, w', rfl, .inl ⟨_, _, rfl, (unfinished_newFailedReadResult reqLen e).status, .inl rfl, hext, .single m,
      fun h => hfault ⟨hreqFits, h.1⟩⟩⟩
  | @acknowledged m out s hkept hserved hext hready hturns hpdu =>
    obtain ⟨r, hr, hwf, hle, hcase⟩ := hserve m
    rw [hr] at hserved
    cases hserved
    have hsize : (readVarResultBytes [r]).length = 4 + r.data.length := by
      simp [length_readVarResultBytes, readVarResultsSize, readVarResultSize]
    rw [responseSections_ackData (by rw [hsize]; simp; omega)] at hsend
    rw [Eff.bind_ok (Eff.attempt_ok hsend)]
    dsimp only
    obtain ⟨hcode, hread⟩ | ⟨hcode, hnone⟩ := hcase
    · rw [(readAnswer_link reqLen result hwf hle (by omega)).1 hcode]
      exact ⟨_, _, w', rfl, .inr ⟨m, r.data, rfl, hread, hext,
        ⟨hw.connected, hw.client, hpdu.trans hw.session, hready⟩, hturns⟩⟩
    · obtain ⟨out, hanswer, hstatus, hdata⟩ := readAnswer_refused reqLen result n hwf (by omega) hcode
      rw [hanswer]
      refine ⟨_, _, w', rfl, .inl ⟨out, _, rfl, by simp [hstatus], .inr hdata, hext, .single m, fun h => ?_⟩⟩
      have := readSpan_kept hkept h.2
      rw [hnone] at this
      cases this

/-- The chunk loop, by induction on the chunks: each piece that is taken is a snapshot of its span. -/
theorem readChunks_shared (hp : p ≤ 4096) (hdb : addr.dbNumber = db) (hdble : db ≤ 65535)
    {reqLen : Nat} {chunks : List Nat}
    (hall : ∀ n ∈ chunks, 0 < n ∧ n + 24 ≤ p) (offset : Nat) (hend : offset + chunks.sum ≤ maxS7AnyByteOffset + 1)
    (first : Bool) (result : Bytes) (hsum : result.length + chunks.sum = reqLen) (hw : SharedLinked p c w) :
    ∃ out c' w' steps taken,
      readChunks (sharedNet cfg id) addr reqLen chunks first offset result (c, w) = (.ok out, (c', w')) ∧
      w.Extends cfg w' steps ∧ Unchanged steps ∧ taken.map Prod.fst <+: steps.map Prod.fst ∧
      List.Forall₂ (SpanRead addr) ((chunkSpans offset chunks).take taken.length) taken ∧
      (out.data = [] ∨ out.data = result ++ (taken.map Prod.snd).flatten) ∧
      (out.status = .success ↔ taken.length = chunks.length) ∧
      (out.status = .success → out.data = result ++ (taken.map Prod.snd).flatten) ∧
      ((w.server.mem.readSpan addr offset chunks.sum).isSome → (∀ t ∈ w.turns, t.Calm) →
        chunks.length ≤ w.turns.length → out.status = .success) := by
  induction chunks generalizing c w first offset result with
  | nil =>
    have hstatus : (readOutcome reqLen result).status = .success :=
      (readOutcome_end (by simpa using hsum.le) c first []).success.mpr ⟨by simpa using hsum, [], rfl⟩
    exact ⟨_, c, w, [], [], rfl, .refl w, .nil, by simp, by simp, by simp [readOutcome], by simp [hstatus],
      by simp [readOutcome], fun _ _ _ => hstatus⟩
  | cons n chunks ih =>
    obtain ⟨⟨hpos, hn⟩, hrest⟩ := List.forall_mem_cons.mp hall
    rw [List.sum_cons] at hend hsum
    obtain ⟨r, c₁, w₁, hchunk, ⟨out, last, rfl, hstatus, hdata, hext, hlast, hnot⟩ |
        ⟨m, piece, rfl, hread, hext, hw₁, hturns⟩⟩ :=
      readChunk_shared hw hp hdb hdble (show offset ≤ maxS7AnyByteOffset by omega) hpos hn reqLen
        first result
    · refine ⟨out, c₁, w₁, last, [], (Eff.bind_ok hchunk).trans rfl, hext, hlast, by simp, by simp, by simpa using hdata,
        by simp [hstatus], fun h => absurd h hstatus, ?_⟩
      intro hsome hcalm hlen
      obtain ⟨t, turns, hturns⟩ := List.exists_cons_of_length_pos (show 0 < w.turns.length from Nat.lt_of_lt_of_le
        (Nat.succ_pos _) hlen)
      rw [List.sum_cons] at hsome
      exact absurd ⟨⟨t, turns, hturns, hcalm t (hturns ▸ List.mem_cons_self)⟩, isSome_readSpan_left hsome⟩ hnot
    · have hpiece : piece.length = n := length_readSpan hread
      obtain ⟨out, c', w', steps, taken, hrun, hext', hsteps, hfst, hspans, hdata, hiff, hall', hlive⟩ :=
        ih hrest (offset + n) (by omega) false (result ++ piece) (by rw [List.length_append]; omega) hw₁
      refine ⟨out, c', w', [(m, m)] ++ steps, (m, piece) :: taken, (Eff.bind_ok hchunk).trans hrun, hext.trans hext',
        (Unchanged.single m).append hsteps, ?_, ?_, ?_, ?_, ?_, ?_⟩
      · exact List.cons_prefix_cons.mpr ⟨rfl, hfst⟩
      · rw [chunkSpans, List.length_cons, List.take_succ_cons]
        exact .cons hread hspans
      · rwa [List.map_cons, List.flatten_cons, ← List.append_assoc]
      · rw [hiff, List.length_cons, List.length_cons, Nat.succ_inj]
      · rwa [List.map_cons, List.flatten_cons, ← List.append_assoc]
      · intro hsome hcalm hlen
        rw [List.sum_cons] at hsome
        refine hlive (readSpan_kept hext.kept (isSome_readSpan_right hsome)) ?_ ?_
        · rw [hturns]
          exact fun t ht => hcalm t (List.mem_of_mem_tail ht)
        · rw [hturns, List.length_tail]
          exact Nat.le_sub_of_add_le hlen

end Chunks

/-! ### ReadArea -/

/-- Reading from a shared server over a transport that may fail. The call changes nothing. The data it returns are
    pieces that each stood in the memory at one moment of the run, in the order of the spans; it returns all of
    them exactly when it reports success. Without a fault, no other session and no call of the host can make it
    fail. -/
theorem read_area_shared (cfg : ServerConfig) (id : Nat) (addr : Address) {p : Nat} (hp : 25 ≤ p) (hp' : p ≤ 4096)
    {c : Client} (srv : Server) (turns : List (Interlude id)) (hconn : c.connected = true) (hc : c.pduSize = p)
    (hs : srv.pduSize id = p)
    (hvalid : validateAddress addr = .ok ()) (hrange : validateRangeEnd addr.start addr.size = .ok ()) :
    ∃ out c' w' taken chunks,
      readArea (sharedNet cfg id) addr (c, { server := srv, turns }) = (.ok out, (c', w')) ∧
      chunks = planReadChunks addr.size.toNat (p - 24) ∧
      w'.server = srv.run cfg w'.history ∧ Unchanged (ownSteps cfg id srv w'.history) ∧
      taken.map Prod.fst <+: (ownSteps cfg id srv w'.history).map Prod.fst ∧
      List.Forall₂ (SpanRead addr) ((chunkSpans addr.start.toNat chunks).take taken.length) taken ∧
      (out.data = [] ∨ out.data = (taken.map Prod.snd).flatten) ∧
      (out.status = .success ↔ taken.length = chunks.length) ∧
      (out.status = .success → out.data = (taken.map Prod.snd).flatten) ∧
      ((srv.mem.readSpan addr addr.start.toNat addr.size.toNat).isSome → (∀ t ∈ turns, t.Calm) →
        chunks.length ≤ turns.length → out.status = .success) := by
  obtain ⟨db, start, size, hdb, hstart, hsize, hdble⟩ := validateAddress_ok hvalid
  have hlast := validateRangeEnd_ok hrange
  have hchunk : maxChunkData c.pduSize readVarRequestOverhead = p - 24 := by
    rw [hc]
    exact maxChunkData_eq hp
  obtain ⟨hsum, hall⟩ := planReadChunks_spec size (show 0 < p - 24 by omega)
  have hw : SharedLinked p c ({ server := srv, turns } : SharedLink id) := ⟨hconn, hc, hs, rfl, rfl, rfl⟩
  obtain ⟨out, c', w', steps, taken, hrun, ⟨events, hhist, hsrv, hown⟩, hsteps, hrest⟩ :=
    readChunks_shared hp' hdb hdble
      (fun n hn => ⟨(hall n hn).1, by have := (hall n hn).2; omega⟩) start (by omega) true [] (by simpa using hsum) hw
  obtain rfl : w'.history = events := hhist
  subst hown
  rw [hsum] at hrest
  rw [hstart, hsize, Int.toNat_natCast, Int.toNat_natCast]
  refine ⟨out, c', w', taken, _, ?_, rfl, hsrv, hsteps, hrest⟩
  unfold readArea
  rw [hvalid, Eff.bind_ok (Eff.lift_apply _ _), hrange, Eff.bind_ok (Eff.lift_apply _ _), Eff.bind_ok (Eff.get_apply _)]
  dsimp only
  rw [hchunk, hstart, hsize, Int.toNat_natCast, Int.toNat_natCast]
  exact hrun

/-- The host writes all of DB1 between the two chunks of a read. -/
def tornTurns : List (Interlude 0) :=
  [{ foreign := List.forall_mem_nil _ },
    { others := [.write areaDB 1 0 [0xaa, 0xbb, 0xcc]], foreign := List.forall_mem_singleton.mpr rfl }]

/-- A read of three bytes in two chunks, with a PDU size of 26, succeeds with bytes that never stood together in the
    memory. -/
theorem read_area_shared_torn :
    ∃ out c' w', ∃ taken : List (Memory × Bytes), readArea (sharedNet defaultConfig 0) ⟨areaDB, 1, 0, 3⟩
        (⟨true, 26, 0, 0⟩, { server := ⟨dbSession.mem, fun _ => 26⟩, turns := tornTurns }) = (.ok out, (c', w')) ∧
      out.status = .success ∧ out.data = [0x11, 0x22, 0xcc] ∧ out.data = (taken.map Prod.snd).flatten ∧
      taken.map Prod.fst <+:
        (ownSteps defaultConfig 0 ⟨dbSession.mem, fun _ => 26⟩ w'.history).map Prod.fst := by
  obtain ⟨out, c', w', taken, chunks, hrun, -, -, -, hfst, -, -, -, hdata, -⟩ :=
    read_area_shared defaultConfig 0 ⟨areaDB, 1, 0, 3⟩ (p := 26) (by decide) (by decide) (c := ⟨true, 26, 0, 0⟩)
      ⟨dbSession.mem, fun _ => 26⟩ tornTurns rfl rfl rfl rfl rfl
  have hout : (readArea (sharedNet defaultConfig 0) ⟨areaDB, 1, 0, 3⟩
      (⟨true, 26, 0, 0⟩, { server := ⟨dbSession.mem, fun _ => 26⟩, turns := tornTurns })).1 =
        .ok { status := .success, requestedLength := 3, returnedLength := 3, data := [0x11, 0x22, 0xcc] } := by
    decide +kernel
  rw [hrun] at hout
  cases hout
  exact ⟨_, c', w', taken, hrun, rfl, rfl, hdata rfl, hfst⟩

end S7Comm
