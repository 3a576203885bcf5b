import S7Comm.Theorems.HostileReads

/-! The status of a read and its lengths. A read ends on several ways out of its chunk loop; those of them that speak of
    lengths are the end of the loop, and an answer without items. -/

namespace S7Comm
open Go

/-- What the documentation says of the statuses that speak of lengths. -/
structure ReadResult.Obeys (out : ReadResult) : Prop where
  emptyRead : out.status = .emptyRead → 0 < out.requestedLength ∧ out.returnedLength = 0
  shortRead : out.status = .shortRead → 0 < out.returnedLength ∧ out.returnedLength < out.requestedLength
  success : out.status = .success → out.returnedLength = out.requestedLength

/-! ### Ways out -/

theorem classifyOpError_spec (err : GoError) : classifyOpError err ≠ .emptyRead ∧ classifyOpError err ≠ .shortRead := by
  unfold classifyOpError
  split_ifs <;> simp

theorem classifyReadOutcome_spec {requested returned : Nat} (hle : returned ≤ requested) :
    (classifyReadOutcome requested returned = .emptyRead → 0 < requested ∧ returned = 0) ∧
      (classifyReadOutcome requested returned = .shortRead → 0 < returned ∧ returned < requested) ∧
      (classifyReadOutcome requested returned = .success → returned = requested) := by
  unfold classifyReadOutcome
  split_ifs <;> simp <;> omega

/-- The end of the chunk loop obeys. -/
theorem readOutcome_obeys {reqLen : Nat} {result : Bytes} (hle : result.length ≤ reqLen) :
    (readOutcome reqLen result).Obeys := by
  obtain ⟨hempty, hshort, hsuccess⟩ := classifyReadOutcome_spec hle
  exact ⟨hempty, hshort, hsuccess⟩

section Chunk
variable {σ : Type} (net : Net σ) (addr : Address) (first : Bool) (offset n : Nat) (st : Client × σ)

/-- The chunk is answered without an item. -/
def AnsweredEmpty : Prop :=
  ∃ param data st', ReadExchange net addr first offset n st param data st' ∧ parseReadVarResponse param data = .ok []

/-- The chunk is answered with a payload that the client takes. -/
def AnsweredWith (payload : Bytes) (st' : Client × σ) : Prop :=
  ∃ param data item items, ReadExchange net addr first offset n st param data st' ∧
    parseReadVarResponse param data = .ok (item :: items) ∧ item.returnCode = retCodeSuccess ∧
    item.data = payload ∧ payload.length ≤ n

end Chunk

/-- After `got` bytes were read, the answers to the chunks go on: at least one byte is read, and a later chunk is
    answered without an item. -/
def EmptyAfterData {σ : Type} (net : Net σ) (addr : Address) :
    (chunks : List Nat) → (first : Bool) → (offset got : Nat) → Client × σ → Prop
  | [], _, _, _, _ => False
  | n :: chunks, first, offset, got, st =>
    0 < got ∧ AnsweredEmpty net addr first offset n st ∨
      ∃ payload st', AnsweredWith net addr first offset n st payload st' ∧
        EmptyAfterData net addr chunks false (offset + n) (got + payload.length) st'

section Answers
variable {σ : Type} {net : Net σ} {addr : Address} {reqLen : Nat} {first : Bool} {offset n : Nat} {result : Bytes}
  {st st' : Client × σ} {param data payload : Bytes} {out : ReadResult}

theorem ReadExchange.readChunk (h : ReadExchange net addr first offset n st param data st') :
    readChunk net addr reqLen first offset result n st = (readAnswer reqLen result n param data, st') := by
  obtain ⟨st₁, ref, st₂, req, hgate, href, hreq, hsend⟩ := h
  unfold S7Comm.readChunk
  rw [Eff.bind_ok (Eff.attempt_ok hgate)]
  dsimp only
  rw [Eff.bind_ok href, hreq]
  dsimp only
  rw [Eff.bind_ok (Eff.attempt_ok hsend)]
  rfl

/-- What the loop takes from a chunk is the payload of its answer. -/
theorem answeredWith_iff : AnsweredWith net addr first offset n st payload st' ↔
    readChunk net addr reqLen first offset result n st = (.ok (.ok payload), st') := by
  constructor
  · rintro ⟨param, data, item, items, hexchange, htaken⟩
    rw [hexchange.readChunk, readAnswer_eq_taken.mpr ⟨item, items, htaken⟩]
  · intro h
    rcases readChunk_cases h with ⟨e, hfailed⟩ | ⟨param, data, hexchange, hanswer⟩
    · cases hfailed
    · obtain ⟨item, items, htaken⟩ := readAnswer_eq_taken.mp hanswer
      exact ⟨param, data, item, items, hexchange, htaken⟩

/-- An answer without items is the one that ends a read as empty before its loop has ended. -/
theorem answeredEmpty_iff : AnsweredEmpty net addr first offset n st ↔
    ∃ out st', readChunk net addr reqLen first offset result n st = (.ok (.error out), st') ∧
      out.status = .emptyRead := by
  constructor
  · rintro ⟨param, data, st', hexchange, hparse⟩
    obtain ⟨out, hanswer, hstatus⟩ : ∃ out, readAnswer reqLen result n param data = .ok (.error out) ∧
        out.status = .emptyRead := by
      rw [readAnswer, hparse]
      exact ⟨_, rfl, rfl⟩
    exact ⟨out, st', by rw [hexchange.readChunk, hanswer], hstatus⟩
  · rintro ⟨out, st', h, hstatus⟩
    rcases readChunk_cases h with ⟨e, hfailed⟩ | ⟨param, data, hexchange, hanswer⟩
    · cases hfailed
      exact absurd hstatus (classifyOpError_spec e).1
    · obtain ⟨-, -, -, ⟨-, hparse⟩ | hother | hother⟩ := readAnswer_error hanswer
      · exact ⟨param, data, st', hexchange, hparse⟩
      · rw [hother] at hstatus
        cases hstatus
      · rw [hother] at hstatus
        cases hstatus

/-- A result that ends a read early obeys, unless it is empty with bytes that were read before. -/
theorem obeys_early_iff (h : readChunk net addr reqLen first offset result n st = (.ok (.error out), st'))
    (hpos : 0 < reqLen) : out.Obeys ↔ (out.status = .emptyRead → result.length = 0) := by
  have hrequested := (readChunk_unfinished h).requested
  have hsuccess := (readChunk_unfinished h).status
  have hshort : out.status ≠ .shortRead ∧ (out.status = .emptyRead → out.returnedLength = result.length) := by
    rcases readChunk_cases h with ⟨e, hfailed⟩ | ⟨param, data, -, hanswer⟩
    · cases hfailed
      obtain ⟨hempty, hshort⟩ := classifyOpError_spec e
      exact ⟨hshort, fun hstatus => absurd hstatus hempty⟩
    · obtain ⟨-, hreturned, -, hstatus⟩ := readAnswer_error hanswer
      refine ⟨?_, fun _ => hreturned⟩
      rcases hstatus with ⟨hstatus, -⟩ | hstatus | hstatus <;> simp [hstatus]
  constructor
  · intro hobeys hstatus
    rw [← hshort.2 hstatus]
    exact (hobeys.emptyRead hstatus).2
  · intro hnone
    refine ⟨fun hstatus => ⟨by omega, ?_⟩, fun h => absurd h hshort.1, fun h => absurd h hsuccess⟩
    rw [hshort.2 hstatus, hnone hstatus]

end Answers

/-! ### The chunk loop -/

/-- Every result of the loop obeys just when no answer without items comes after bytes. By induction on the chunks:
    a chunk that is taken leaves the rest of the loop, and every other one ends it. -/
theorem readChunks_obeys_iff {σ : Type} {net : Net σ} {addr : Address} {reqLen : Nat} {chunks : List Nat}
    (hall : ∀ n ∈ chunks, 0 < n) (first : Bool) (offset : Nat) {result : Bytes}
    (hsum : result.length + chunks.sum ≤ reqLen) (st : Client × σ) :
    (∀ out st', readChunks net addr reqLen chunks first offset result st = (.ok out, st') → out.Obeys) ↔
      ¬EmptyAfterData net addr chunks first offset result.length st := by
  induction chunks generalizing first offset result st with
  | nil =>
    refine iff_of_true ?_ id
    rintro out st' ⟨⟩
    exact readOutcome_obeys hsum
  | cons n chunks ih =>
    obtain ⟨hn, hrest⟩ := List.forall_mem_cons.mp hall
    rw [List.sum_cons] at hsum
    have hwith (payload : Bytes) (st' : Client × σ) : AnsweredWith net addr first offset n st payload st' ↔
        readChunk net addr reqLen first offset result n st = (.ok (.ok payload), st') := answeredWith_iff
    have hempty : AnsweredEmpty net addr first offset n st ↔
        ∃ out st', readChunk net addr reqLen first offset result n st = (.ok (.error out), st') ∧
          out.status = .emptyRead := answeredEmpty_iff
    have hbroken (h : ∀ r st', readChunk net addr reqLen first offset result n st ≠ (.ok r, st')) :
        ¬EmptyAfterData net addr (n :: chunks) first offset result.length st := by
      rintro (⟨-, hanswer⟩ | ⟨payload, st', hanswer, -⟩)
      · obtain ⟨out, st', hchunk, -⟩ := hempty.mp hanswer
        exact h _ _ hchunk
      · exact h _ _ ((hwith payload st').mp hanswer)
    rcases hchunk : readChunk net addr reqLen first offset result n st with ⟨(out | payload) | e | _, st₁⟩
    · have hloop : readChunks net addr reqLen (n :: chunks) first offset result st = (.ok out, st₁) :=
        Eff.bind_ok hchunk
      have hresult : (∀ out' st', readChunks net addr reqLen (n :: chunks) first offset result st = (.ok out', st') →
          out'.Obeys) ↔ out.Obeys := by
        refine ⟨fun h => h out st₁ hloop, fun h out' st' hrun => ?_⟩
        rw [hloop] at hrun
        cases hrun
        exact h
      refine hresult.trans ((obeys_early_iff hchunk (by omega)).trans ⟨?_, fun hno hstatus => ?_⟩)
      · rintro hnone (⟨hgot, hanswer⟩ | ⟨payload, st', hanswer, -⟩)
        · obtain ⟨out', st', hchunk', hstatus⟩ := hempty.mp hanswer
          rw [hchunk] at hchunk'
          cases hchunk'
          exact Nat.ne_of_gt hgot (hnone hstatus)
        · rw [hwith, hchunk] at hanswer
          cases hanswer
      · by_contra hgot
        exact hno (.inl ⟨Nat.pos_of_ne_zero hgot, hempty.mpr ⟨out, st₁, hchunk, hstatus⟩⟩)
    · have hloop : readChunks net addr reqLen (n :: chunks) first offset result st =
          readChunks net addr reqLen chunks false (offset + n) (result ++ payload) st₁ := Eff.bind_ok hchunk
      have htaken := (hwith payload st₁).mpr hchunk
      have hle : payload.length ≤ n := by
        obtain ⟨-, -, -, -, -, -, -, -, hle⟩ := htaken
        exact hle
      rw [hloop]
      refine (ih hrest false (offset + n) (by rw [List.length_append]; omega) st₁).trans (not_congr ?_)
      rw [List.length_append]
      constructor
      · exact fun h => .inr ⟨payload, st₁, htaken, h⟩
      · rintro (⟨-, hanswer⟩ | ⟨payload', st', hanswer, h⟩)
        · obtain ⟨out', st', hchunk', -⟩ := hempty.mp hanswer
          rw [hchunk] at hchunk'
          cases hchunk'
        · rw [hwith, hchunk] at hanswer
          cases hanswer
          exact h
    · refine iff_of_true (fun out st' hrun => ?_) (hbroken fun r st' h => by rw [hchunk] at h; cases h)
      rw [readChunks, Eff.bind_fail hchunk] at hrun
      cases hrun
    · refine iff_of_true (fun out st' hrun => ?_) (hbroken fun r st' h => by rw [hchunk] at h; cases h)
      rw [readChunks, Eff.bind_panic hchunk] at hrun
      cases hrun

/-! ### ReadArea -/

/-- The status of a read on a valid address, against any peer, obeys the documentation just when no chunk is answered
    without an item after an earlier chunk was answered with bytes. -/
theorem read_area_status_iff {σ : Type} (net : Net σ) (addr : Address) (c : Client) (w : σ)
    (hvalid : validateAddress addr = .ok ()) (hrange : validateRangeEnd addr.start addr.size = .ok ()) :
    (∀ out st', readArea net addr (c, w) = (.ok out, st') → out.Obeys) ↔
      ¬EmptyAfterData net addr (planReadChunks addr.size.toNat (maxChunkData c.pduSize readVarRequestOverhead)) true
        addr.start.toNat 0 (c, w) := by
  obtain ⟨hsum, hall⟩ := planReadChunks_spec addr.size.toNat (maxChunkData_pos c.pduSize readVarRequestOverhead)
  have hrun : readArea net addr (c, w) = readChunks net addr addr.size.toNat
      (planReadChunks addr.size.toNat (maxChunkData c.pduSize readVarRequestOverhead)) true addr.start.toNat []
      (c, w) := by
    unfold readArea
    rw [hvalid, Eff.bind_ok (Eff.lift_apply _ _), hrange, Eff.bind_ok (Eff.lift_apply _ _),
      Eff.bind_ok (Eff.get_apply _)]
  rw [hrun]
  exact readChunks_obeys_iff (fun n hn => (hall n hn).1) true addr.start.toNat (by simp [hsum]) (c, w)

/-- Two chunks answered in full. -/
theorem read_area_status_two_chunks :
    ∃ out st', readArea peerNet ⟨areaDB, 1, 0, 4⟩
        (smallClient, { turns := [byteTurn 1 [0x11, 0x12], byteTurn 2 [0x22, 0x33]] }) = (.ok out, st') ∧
      out.status = .success ∧ out.Obeys := by
  have hplan : planReadChunks 4 (maxChunkData 26 readVarRequestOverhead) = [2, 2] := by decide +kernel
  have hfirst : readChunk peerNet ⟨areaDB, 1, 0, 4⟩ 4 true 0 [] 2
      (smallClient, { turns := [byteTurn 1 [0x11, 0x12], byteTurn 2 [0x22, 0x33]] }) =
        (.ok (.ok [0x11, 0x12]), (⟨true, 26, 1, 0⟩, { turns := [byteTurn 2 [0x22, 0x33]] })) := by
    decide +kernel
  have hsecond : readChunk peerNet ⟨areaDB, 1, 0, 4⟩ 4 false 2 [0x11, 0x12] 2
      (⟨true, 26, 1, 0⟩, { turns := [byteTurn 2 [0x22, 0x33]] }) =
        (.ok (.ok [0x22, 0x33]), (⟨true, 26, 2, 0⟩, { turns := [] })) := by
    decide +kernel
  have hrun : readArea peerNet ⟨areaDB, 1, 0, 4⟩
      (smallClient, { turns := [byteTurn 1 [0x11, 0x12], byteTurn 2 [0x22, 0x33]] }) =
        (.ok ⟨.success, 4, 4, [0x11, 0x12, 0x22, 0x33], "", none, "", 0⟩, (⟨true, 26, 2, 0⟩, { turns := [] })) := by
    decide +kernel
  refine ⟨_, _, hrun, rfl, (read_area_status_iff peerNet ⟨areaDB, 1, 0, 4⟩ smallClient _ rfl rfl).mpr ?_ _ _ hrun⟩
  rw [show planReadChunks (4 : Int).toNat (maxChunkData smallClient.pduSize readVarRequestOverhead) = [2, 2] from hplan]
  rintro (⟨hgot, -⟩ | ⟨payload, st', htaken, ⟨-, hempty⟩ | ⟨-, -, -, ⟨⟩⟩⟩)
  · exact Nat.lt_irrefl 0 hgot
  · cases hfirst.symm.trans (answeredWith_iff.mp htaken)
    obtain ⟨out, st', hchunk, -⟩ := answeredEmpty_iff.mp hempty
    cases hsecond.symm.trans hchunk

/-- The turn of a peer that answers reference `ref` without items. -/
def emptyTurn (ref : UInt16) : Turn where
  answer := .ok (ackData ref 0 0 [funcReadVar, 0] [])

/-- The answer to the second chunk has no items: the read is empty, with the two bytes of the first chunk. -/
theorem read_area_empty_with_data :
    validateAddress ⟨areaDB, 1, 0, 4⟩ = .ok () ∧ validateRangeEnd 0 4 = .ok () ∧
      (readArea peerNet ⟨areaDB, 1, 0, 4⟩ (smallClient, { turns := [byteTurn 1 [0x11, 0x12], emptyTurn 2] })).1 =
        .ok ⟨.emptyRead, 4, 2, [0x11, 0x12], "no data returned", none, "", 0⟩ ∧
      ¬ReadResult.Obeys ⟨.emptyRead, 4, 2, [0x11, 0x12], "no data returned", none, "", 0⟩ := by
  refine ⟨rfl, rfl, by decide +kernel, fun h => ?_⟩
  exact absurd (h.emptyRead rfl).2 (by decide)

end S7Comm
