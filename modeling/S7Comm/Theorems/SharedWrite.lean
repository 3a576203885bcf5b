import S7Comm.Theorems.Shared
import S7Comm.Theorems.Spans

/-! `WriteArea` on a shared server over a transport that may fail. Whatever the others do, the server serves the first
    chunks of the call, in order and each at most once. Those that were acknowledged are stored in the memory as the
    others had left it; of one more the client does not know whether it is. -/

namespace S7Comm
open Go

/-- The step stores a span of the data, where the store has one. -/
structure StoresSpan (addr : Address) (start : Nat) (data : Bytes) (span : Nat × Nat) (step : Memory × Memory) : Prop where
  fits : (step.1.readSpan addr (start + span.1) span.2).isSome
  stored : step.2 = storeAt step.1 addr.key (start + span.1) ((data.drop span.1).take span.2)

/-- The step stores the span, or it is refused. -/
def MayStoreSpan (addr : Address) (start : Nat) (data : Bytes) (span : Nat × Nat) (step : Memory × Memory) : Prop :=
  step.2 = step.1 ∨ StoresSpan addr start data span step

/-- What a call has done to the spans of its data: it has stored the first ones, and it may have stored one more. -/
structure WroteSpans (addr : Address) (start : Nat) (data : Bytes) (spans : List (Nat × Nat))
    (acked : List (Memory × Memory)) (last : Option (Memory × Memory)) : Prop where
  stored : List.Forall₂ (StoresSpan addr start data) (spans.take acked.length) acked
  doubtful : ∀ step ∈ last, ∃ span, spans[acked.length]? = some span ∧ MayStoreSpan addr start data span step

section Spans
variable {addr : Address} {start : Nat} {data : Bytes} {span : Nat × Nat} {spans : List (Nat × Nat)}
  {step : Memory × Memory} {acked : List (Memory × Memory)} {last : Option (Memory × Memory)}

theorem WroteSpans.none (spans : List (Nat × Nat)) : WroteSpans addr start data spans [] none :=
  ⟨by simp, by simp⟩

theorem WroteSpans.first (h : MayStoreSpan addr start data span step) (spans : List (Nat × Nat)) :
    WroteSpans addr start data (span :: spans) [] (some step) :=
  ⟨by simp, fun step' hstep => ⟨span, rfl, by rwa [← Option.some.inj hstep]⟩⟩

theorem WroteSpans.cons (h : StoresSpan addr start data span step) (hrest : WroteSpans addr start data spans acked last) :
    WroteSpans addr start data (span :: spans) (step :: acked) last where
  stored := by
    rw [List.length_cons, List.take_succ_cons]
    exact .cons h hrest.stored
  doubtful := by
    rw [List.length_cons, List.getElem?_cons_succ]
    exact hrest.doubtful

@[simp] theorem length_chunkSpans (offset : Nat) (chunks : List Nat) :
    (chunkSpans offset chunks).length = chunks.length := by
  induction chunks generalizing offset with
  | nil => rfl
  | cons n chunks ih => rw [chunkSpans, List.length_cons, ih, List.length_cons]

end Spans

/-! ### Chunks -/

section Chunks
variable {cfg : ServerConfig} {id : Nat} {w : SharedLink id} {addr : Address} {db start : Nat} {chunk data : Bytes}

/-- The exchange of a Write Var job of one item. Where the server takes the item, the step is as `P` says; where
    it does not, the step changes nothing, and `R` does not hold of the memory. -/
theorem writeExchange_shared {P : Memory × Memory → Prop} {R : Memory → Prop}
    (hR : ∀ {m m' : Memory}, Kept m.shape m'.shape → R m → R m') (hw : w.Ready) (c : Client) (ref : UInt16) {req : Bytes}
    (hserve : ∀ m, ∃ code s, handle cfg req ⟨m, w.server.pduSize id⟩ =
        (.ok (some (ackData ref 0 0 [funcWriteVar, 1] [code]), true), s) ∧
      (code = retCodeSuccess → P (m, s.mem)) ∧ (code ≠ retCodeSuccess → s.mem = m ∧ ¬R m)) :
    ∃ w', ((∃ e, (do
            let (param, respData) ← sendReceive (sharedNet cfg id) req ref
            parseWriteVarResponse param respData : ClientM (SharedLink id) Unit) (c, w) = (.fail e, (c, w'))) ∧
          ¬(Fits c req ∧ w.Calm ∧ R w.server.mem) ∧
          ∃ last : Option (Memory × Memory), w.Extends cfg w' last.toList ∧ ∀ step ∈ last, step.2 = step.1 ∨ P step) ∨
        (do
            let (param, respData) ← sendReceive (sharedNet cfg id) req ref
            parseWriteVarResponse param respData : ClientM (SharedLink id) Unit) (c, w) = (.ok (), (c, w')) ∧
          w'.Ready ∧ w'.turns = w.turns.tail ∧ ∃ step, w.Extends cfg w' [step] ∧ P step := by
  obtain ⟨r, w', hsend, hex⟩ := sendReceive_shared hw c ref fun m =>
    let ⟨_, _, h, _⟩ := hserve m
    ⟨_, _, h⟩
  refine ⟨w', ?_⟩
  cases hex with
  | unserved e hfault hext =>
    exact .inl ⟨⟨e, Eff.bind_fail hsend⟩, fun h => hfault ⟨h.1, h.2.1⟩, none, hext, by simp⟩
  | @unacknowledged e hfault m out s hkept hserved hext =>
    obtain ⟨code, s', hs, hok, hrefused⟩ := hserve m
    rw [hs] at hserved
    cases hserved
    refine .inl ⟨⟨e, Eff.bind_fail hsend⟩, fun h => hfault ⟨h.1, h.2.1⟩, some (m, s.mem), hext, ?_⟩
    rintro step hstep
    rw [← Option.some.inj hstep]
    by_cases hcode : code = retCodeSuccess
    · exact .inr (hok hcode)
    · exact .inl (hrefused hcode).1
  | @acknowledged m out s hkept hserved hext hready hturns _ =>
    obtain ⟨code, s', hs, hok, hrefused⟩ := hserve m
    rw [hs] at hserved
    cases hserved
    rw [responseSections_ackData (by simp)] at hsend
    rw [Eff.bind_ok hsend]
    dsimp only
    obtain ⟨hparse, hfail⟩ := parseWriteVarResponse_single code
    by_cases hcode : code = retCodeSuccess
    · rw [hparse hcode]
      exact .inr ⟨rfl, hready, hturns, _, hext, hok hcode⟩
    · obtain ⟨e, he⟩ := hfail hcode
      rw [he]
      refine .inl ⟨⟨e, rfl⟩, fun h => (hrefused hcode).2 (hR hkept h.2.2), some (m, s.mem), hext, ?_⟩
      rintro step hstep
      rw [← Option.some.inj hstep]
      exact .inl (hrefused hcode).1

/-- A chunk is acknowledged, or the call ends. -/
theorem writeChunk_shared (hw : w.Ready) (c : Client) (haddr : Writable addr db start data.length) {offset n : Nat}
    (hpos : 0 < n) (hle : offset + n ≤ data.length) (first : Bool) :
    ∃ pduRef w', ((∃ e, writeChunk (sharedNet cfg id) addr data first offset n (c, w) = (.fail e, ({ c with pduRef }, w'))) ∧
          ¬(c.connected = true ∧ Sendable c.pduSize n ∧ w.Calm ∧ w.server.mem.Takes addr (start + offset + n)) ∧
          ∃ last : Option (Memory × Memory), w.Extends cfg w' last.toList ∧
            ∀ step ∈ last, MayStoreSpan addr start data (offset, n) step) ∨
        writeChunk (sharedNet cfg id) addr data first offset n (c, w) = (.ok (), ({ c with pduRef }, w')) ∧
          w'.Ready ∧ w'.turns = w.turns.tail ∧
          ∃ step, w.Extends cfg w' [step] ∧ StoresSpan addr start data (offset, n) step := by
  obtain ⟨hdb, hdble, hstart, hlast⟩ := haddr
  unfold writeChunk
  obtain hgate | ⟨⟨e, hgate⟩, hfault⟩ := chunkGate_shared c w first
  swap
  · exact ⟨c.pduRef, w, .inl ⟨⟨e, Eff.bind_fail hgate⟩, fun h => hfault ⟨hw.due, h.2.2.1⟩, none, .refl w, by simp⟩⟩
  obtain ⟨ref, pduRef, href⟩ : ∃ ref pduRef, nextPDURef (c, w) = (.ok ref, ({ c with pduRef }, w)) :=
    ⟨_, _, nextPDURef_apply c w⟩
  obtain ⟨chunk, hchunk⟩ : ∃ chunk, (data.drop offset).take n = chunk := ⟨_, rfl⟩
  obtain rfl : chunk.length = n := by
    rw [← hchunk]
    simp
    omega
  have hslice : sliceOf data offset (offset + chunk.length) = .ok chunk := by
    rw [sliceOf_of_le (by omega) hle, Nat.add_sub_cancel_left, hchunk]
  have hint : addr.start + (offset : Int) = ((start + offset : Nat) : Int) := by
    rw [hstart]
    rfl
  rw [Eff.bind_ok hgate, hslice, Eff.bind_ok (Eff.lift_apply _ _), Eff.bind_ok href, hdb, hint]
  refine ⟨pduRef, ?_⟩
  by_cases hbits : chunk.length * 8 ≤ 65535
  · have haddr : Addressable db (start + offset) chunk.length := ⟨hdble, by omega, by omega⟩
    rw [encodeWriteVarRequest_eq ref haddr hbits]
    obtain ⟨w', ⟨hfail, hnot, last, hext, hmay⟩ | ⟨hok, hready, hturns, step, hext, hstores⟩⟩ :=
      writeExchange_shared (P := StoresSpan addr start data (offset, chunk.length))
        (R := fun m => m.Takes addr (start + offset + chunk.length)) (fun hkept h => h.kept hkept) hw { c with pduRef } ref
        fun m => by
          obtain ⟨code, s, hs, -, hok, hrefused⟩ :=
            handle_bytes cfg ⟨m, w.server.pduSize id⟩ ref hdb haddr hpos hbits
          refine ⟨code, s, hs, fun hcode => ⟨(hok hcode).1, ?_⟩, hrefused⟩
          rw [(hok hcode).2]
          dsimp only
          rw [hchunk]
    · refine ⟨w', .inl ⟨hfail, ?_, last, hext, hmay⟩⟩
      rintro ⟨hconn, hsend, hcalm, hreg⟩
      refine hnot ⟨⟨hconn, ?_⟩, hcalm, hreg⟩
      rw [length_writeRequest ref chunk]
      exact hsend.2
    · exact ⟨w', .inr ⟨hok, hready, hturns, step, hext, hstores⟩⟩
  · obtain ⟨e, he⟩ := encodeWriteVarRequest_fail ref ⟨addr.area, db, ((start + offset : Nat) : Int), chunk.length⟩ hbits
    rw [he]
    exact ⟨w, .inl ⟨⟨_, rfl⟩, fun h => hbits h.2.1.1, none, .refl w, by simp⟩⟩

/-- The chunk loop, by induction on the chunks: each acknowledged chunk adds its step, and the loop ends with the
    first one that is not. -/
theorem writeChunks_shared (haddr : Writable addr db start data.length) {chunks : List Nat} (hpos : ∀ n ∈ chunks, 0 < n)
    (offset : Nat) (hsum : offset + chunks.sum = data.length) (first : Bool) (c : Client) (hw : w.Ready) :
    ∃ res c' w' acked last,
      writeChunks (sharedNet cfg id) addr data chunks first offset (c, w) = (res, (c', w')) ∧ res ≠ .panic ∧
      w.Extends cfg w' (acked ++ last.toList) ∧
      WroteSpans addr start data (chunkSpans offset chunks) acked last ∧ (res = .ok () ↔ acked.length = chunks.length) ∧
      (c.connected = true → (∀ n ∈ chunks, Sendable c.pduSize n) → w.server.mem.Takes addr (start + data.length) →
        (∀ t ∈ w.turns, t.Calm) → chunks.length ≤ w.turns.length → res = .ok ()) := by
  induction chunks generalizing c w first offset with
  | nil => exact ⟨.ok (), c, w, [], none, rfl, by simp, .refl w, .none _, by simp, by simp⟩
  | cons n chunks ih =>
    obtain ⟨hn, hrest⟩ := List.forall_mem_cons.mp hpos
    rw [List.sum_cons] at hsum
    obtain ⟨pduRef, w₁, ⟨⟨e, hfail⟩, hnot, last, hext, hmay⟩ | ⟨hok, hready, hturns, step, hext, hstores⟩⟩ :=
      writeChunk_shared hw c haddr hn (show offset + n ≤ data.length by omega) first
    · refine ⟨.fail e, _, w₁, [], last, Eff.bind_fail hfail, by simp, hext, ?_, by simp, ?_⟩
      · cases last with
        | none => exact .none _
        | some step => exact .first (hmay step rfl) _
      · intro hconn hsend htakes hcalm hlen
        obtain ⟨t, turns, hturns⟩ := List.exists_cons_of_length_pos (show 0 < w.turns.length from Nat.lt_of_lt_of_le
          (Nat.succ_pos _) hlen)
        exact absurd ⟨hconn, hsend n List.mem_cons_self, ⟨t, turns, hturns, hcalm t (hturns ▸ List.mem_cons_self)⟩,
          htakes.mono (by omega)⟩ hnot
    · obtain ⟨res, c', w', acked, last, hrun, hres, hext', hwrote, hiff, hlive⟩ :=
        ih hrest (offset + n) (by omega) false { c with pduRef } hready
      refine ⟨res, c', w', step :: acked, last, (Eff.bind_ok hok).trans hrun, hres, hext.trans hext',
        .cons hstores hwrote, ?_, ?_⟩
      · rw [hiff, List.length_cons, List.length_cons, Nat.succ_inj]
      · intro hconn hsend hreg hcalm hlen
        refine hlive hconn (List.forall_mem_cons.mp hsend).2 (hreg.kept hext.kept) ?_ ?_
        · rw [hturns]
          exact fun t ht => hcalm t (List.mem_of_mem_tail ht)
        · rw [hturns, List.length_tail]
          exact Nat.le_sub_of_add_le hlen

end Chunks

/-! ### WriteArea -/

/-- The call ends before its first chunk, or it runs the chunk loop. -/
theorem writeArea_shared (cfg : ServerConfig) (addr : Address) (data : Bytes) (c : Client) {id : Nat}
    {w : SharedLink id} (hw : w.Ready) :
    (∃ e, writeArea (sharedNet cfg id) addr data (c, w) = (.fail e, (c, w))) ∧
        ¬(validateAddress addr = .ok () ∧ validateRangeEnd addr.start data.length = .ok () ∧ ∀ t ∈ w.turns, t.Calm) ∨
      validateAddress addr = .ok () ∧ validateRangeEnd addr.start data.length = .ok () ∧
        writeArea (sharedNet cfg id) addr data (c, w) =
          writeChunks (sharedNet cfg id) addr data
            (planReadChunks data.length (maxChunkData c.pduSize writeVarRequestOverhead)) true 0 (c, w) := by
  unfold writeArea
  obtain hvalid | ⟨e, hvalid⟩ := validateAddress_cases addr
  swap
  · exact .inl ⟨⟨e, by rw [hvalid, Eff.bind_fail (Eff.lift_apply _ _)]⟩, fun h => by simp [hvalid] at h⟩
  obtain hrange | ⟨e, hrange⟩ := validateRangeEnd_cases addr.start data.length
  swap
  · refine .inl ⟨⟨e, ?_⟩, fun h => by simp [hrange] at h⟩
    rw [hvalid, Eff.bind_ok (Eff.lift_apply _ _), hrange, Eff.bind_fail (Eff.lift_apply _ _)]
  rw [hvalid, Eff.bind_ok (Eff.lift_apply _ _), hrange, Eff.bind_ok (Eff.lift_apply _ _)]
  have hctx : (sharedNet cfg id).ctxErr w = (w.due.getD (w.turns.head?.bind Interlude.ctx), w) := rfl
  cases herr : w.due.getD (w.turns.head?.bind Interlude.ctx) with
  | some e =>
    rw [herr] at hctx
    refine .inl ⟨⟨e, Eff.bind_fail (netErr_fail hctx)⟩, ?_⟩
    rintro ⟨-, -, hcalm⟩
    rw [hw.due, Option.getD_none, Option.bind_eq_some_iff] at herr
    obtain ⟨t, ht, herr⟩ := herr
    rw [(hcalm t (List.mem_of_mem_head? ht)).ctx] at herr
    cases herr
  | none =>
    rw [herr] at hctx
    exact .inr ⟨rfl, rfl, by rw [Eff.bind_ok (netErr_ok hctx), Eff.bind_ok (Eff.get_apply _)]⟩

/-- Writing on a shared server over a transport that may fail. However other sessions and the host are served in
    between, and whatever becomes of the requests and their answers, what the call does to the memory is to store the
    first chunks of its data, in their order, each once and at its place, in the memory as the others had left it; of
    one chunk after the acknowledged ones the call may leave open whether it was stored. It returns nil exactly when
    all chunks were acknowledged. Without a fault, and with chunks that the PDU size has room for, the others cannot make
    it fail. -/
theorem write_area_shared (cfg : ServerConfig) (id : Nat) (addr : Address) (data : Bytes) (c : Client) (srv : Server)
    (turns : List (Interlude id)) :
    ∃ res c' w' acked last chunks,
      writeArea (sharedNet cfg id) addr data (c, { server := srv, turns }) = (res, (c', w')) ∧ res ≠ .panic ∧
      chunks = planReadChunks data.length (maxChunkData c.pduSize writeVarRequestOverhead) ∧
      w'.server = srv.run cfg w'.history ∧ ownSteps cfg id srv w'.history = acked ++ last.toList ∧
      WroteSpans addr addr.start.toNat data (chunkSpans 0 chunks) acked last ∧
      (res = .ok () → acked.length = chunks.length) ∧ (data ≠ [] → acked.length = chunks.length → res = .ok ()) ∧
      (validateAddress addr = .ok () → validateRangeEnd addr.start data.length = .ok () → c.connected = true →
        (∀ n ∈ chunks, Sendable c.pduSize n) → srv.mem.Takes addr (addr.start.toNat + data.length) →
        (∀ t ∈ turns, t.Calm) → chunks.length ≤ turns.length → res = .ok ()) := by
  obtain ⟨hsum, hall⟩ := planReadChunks_spec data.length (maxChunkData_pos c.pduSize writeVarRequestOverhead)
  obtain ⟨chunks, hchunks⟩ : ∃ chunks,
      chunks = planReadChunks data.length (maxChunkData c.pduSize writeVarRequestOverhead) := ⟨_, rfl⟩
  rw [← hchunks] at hsum hall
  have hready : ({ server := srv, turns } : SharedLink id).Ready := ⟨rfl, rfl, rfl⟩
  obtain ⟨⟨e, hfail⟩, hnot⟩ | ⟨hvalid, hrange, hrun⟩ := writeArea_shared cfg addr data c hready
  · refine ⟨.fail e, c, _, [], none, chunks, hfail, by simp, hchunks, rfl, rfl, .none _, by simp, ?_, ?_⟩
    · intro hdata hlen
      rw [List.eq_nil_of_length_eq_zero hlen.symm, List.sum_nil] at hsum
      exact absurd (List.eq_nil_of_length_eq_zero hsum.symm) hdata
    · exact fun hvalid hrange _ _ _ hcalm _ => absurd ⟨hvalid, hrange, hcalm⟩ hnot
  obtain ⟨db, start, -, hdb, hstart, -, hdble⟩ := validateAddress_ok hvalid
  have hlast := validateRangeEnd_ok hrange
  have haddr : Writable addr db start data.length := ⟨hdb, hdble, hstart, by omega⟩
  obtain ⟨res, c', w', acked, last, hloop, hres, ⟨events, hhist, hsrv, hown⟩, hwrote, hiff, hlive⟩ :=
    writeChunks_shared haddr (fun n hn => (hall n hn).1) 0 (by omega) true c hready
  obtain rfl : w'.history = events := hhist
  rw [← hchunks] at hrun
  refine ⟨res, c', w', acked, last, chunks, hrun.trans hloop, hres, hchunks, hsrv, hown, ?_, hiff.mp, fun _ => hiff.mpr,
    ?_⟩
  · rwa [hstart, Int.toNat_natCast]
  · intro _ _ hconn hsend hreg hcalm hlen
    rw [hstart, Int.toNat_natCast] at hreg
    exact hlive hconn hsend hreg hcalm hlen

end S7Comm
