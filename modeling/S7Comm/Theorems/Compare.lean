import S7Comm.Client.Compare

/-! The comparison over all interleavings. An entry of the results belongs to the goroutine of its candidate, or, if the
    context ended before that goroutine was started, to the loop that fills the rest; no entry belongs to both. The
    tokens in the semaphore belong to goroutines that run, so that no thread waits for ever. -/

namespace S7Comm
open Go

/-! ### The verdict -/

section Verdict

theorem successData_eq_some {c : CompareReadCandidate} {data : Bytes} :
    successData (some c) = some data ↔ c.result.status = .success ∧ c.result.data = data := by
  unfold successData
  split <;> simp_all

theorem allSame_iff {ref : Bytes} {cs : List CompareReadCandidate} :
    allSame ref (cs.map some) = true ↔ ∀ c ∈ cs, c.result.status = .success ∧ c.result.data = ref := by
  induction cs with
  | nil => simp [allSame]
  | cons c cs ih =>
    rw [List.map_cons, allSame, List.forall_mem_cons, ← ih, ← successData_eq_some]
    cases hdata : successData (some c) with
    | none => simp
    | some data => by_cases hne : data = ref <;> simp [hne]

/-- The candidates are insensitive just when there are two or more, all succeeded, and all have the same data. -/
theorem rackSlotInsensitive_iff (cs : List CompareReadCandidate) :
    rackSlotInsensitive (cs.map some) = true ↔
      2 ≤ cs.length ∧ (∀ c ∈ cs, c.result.status = .success) ∧ ∀ c ∈ cs, ∀ c' ∈ cs, c.result.data = c'.result.data := by
  unfold rackSlotInsensitive
  rw [List.length_map]
  by_cases hlen : cs.length < 2
  · rw [if_pos hlen]
    exact iff_of_false Bool.false_ne_true fun h => by omega
  · rw [if_neg hlen]
    obtain ⟨c₀, hc₀⟩ := List.exists_mem_of_length_pos (l := cs) (by omega)
    cases hfirst : (cs.map some).findSome? successData with
    | none =>
      refine iff_of_false Bool.false_ne_true fun h => ?_
      have hfail := List.findSome?_eq_none_iff.mp hfirst (some c₀) (List.mem_map_of_mem hc₀)
      rw [successData_eq_some.mpr ⟨h.2.1 c₀ hc₀, rfl⟩] at hfail
      cases hfail
    | some ref =>
      obtain ⟨_, hmem, hdata⟩ := List.exists_of_findSome?_eq_some hfirst
      obtain ⟨c, hc, rfl⟩ := List.mem_map.mp hmem
      obtain ⟨-, hdata⟩ := successData_eq_some.mp hdata
      refine allSame_iff.trans ⟨fun h => ⟨by omega, fun c hc => (h c hc).1, fun c hc c' hc' => ?_⟩, fun h c' hc' => ?_⟩
      · rw [(h c hc).2, (h c' hc').2]
      · exact ⟨h.2.1 c' hc', (h.2.2 c' hc' c hc).trans hdata⟩

end Verdict

/-! ### Moves -/

section Moves
variable {γ σ : Type} (d : Comparison γ σ) (s : CompareState)

/-- What an action can do. -/
inductive CompareMove : CompareState → Prop
  | ended (err : GoError) : s.ctx = none → CompareMove { s with ctx := some err }
  | acquired {i} : s.main = .starting i → i < d.req.candidates.length → s.sem < d.parallelism →
      CompareMove { s with main := .spawning i, sem := s.sem + 1 }
  | allStarted {i} : s.main = .starting i → d.req.candidates.length ≤ i → CompareMove { s with main := .waiting }
  | canceled {i err} : s.main = .starting i → i < d.req.candidates.length → s.ctx = some err →
      CompareMove { s with main := .filling i }
  | spawned {i} : s.main = .spawning i →
      CompareMove { s with main := .starting (i + 1), readers := s.readers ++ [.reading] }
  | filled {j cand err results} : s.main = .filling j → d.req.candidates[j]? = some cand → s.ctx = some err →
      s.results.write j (some (compareCandidateFailure cand d.req.size err)) = some results →
      CompareMove { s with main := .filling (j + 1), results }
  | allFilled {j} : s.main = .filling j → d.req.candidates.length ≤ j → CompareMove { s with main := .waiting }
  | returned : s.main = .waiting → (∀ pc ∈ s.readers, pc = .done) →
      CompareMove { s with main := .returned ⟨s.results.vals, rackSlotInsensitive s.results.vals⟩ }
  | read {k cand world c} : s.readers[k]? = some .reading → d.req.candidates[k]? = some cand →
      d.read cand world = some c → CompareMove { s with readers := s.readers.set k (.writing c) }
  | wrote {k c results} : s.readers[k]? = some (.writing c) → s.results.write k (some c) = some results →
      CompareMove { s with readers := s.readers.set k .releasing, results }
  | released {k} : s.readers[k]? = some .releasing →
      CompareMove { s with readers := s.readers.set k .done, sem := s.sem - 1 }
  | fillPanicked {j c} : j < d.req.candidates.length → s.results.write j c = none →
      CompareMove { s with main := .panicked }
  | writePanicked {k c} : k < s.readers.length → s.results.write k c = none → CompareMove { s with main := .panicked }

end Moves

section Inversion
variable {γ σ : Type} {d : Comparison γ σ} {s s' : CompareState}

theorem Comparison.mainStep_move (h : d.mainStep s = some s') : CompareMove d s s' := by
  unfold Comparison.mainStep at h
  split at h
  · rename_i hmain
    split at h
    · split at h
      · cases h
        exact .acquired hmain ‹_› ‹_›
      · cases h
    · cases h
      exact .allStarted hmain (Nat.le_of_not_lt ‹_›)
  · cases h
    exact .spawned ‹_›
  · rename_i hmain
    split at h
    · rename_i hcand hctx
      split at h
      · rename_i hwrite
        cases h
        exact .filled hmain hcand hctx hwrite
      · rename_i hwrite
        cases h
        exact .fillPanicked (List.getElem?_eq_some_iff.mp hcand).1 hwrite
    · rename_i hcand
      cases h
      exact .allFilled hmain (List.getElem?_eq_none_iff.mp hcand)
    · cases h
  · split at h
    · rename_i hmain hall
      cases h
      exact .returned hmain (by simpa using hall)
    · cases h
  · cases h
  · cases h

theorem cancelStep_move (h : s.cancelStep d.req.candidates.length = some s') : CompareMove d s s' := by
  unfold CompareState.cancelStep at h
  split at h
  · split at h
    · cases h
      exact .canceled ‹_› ‹_› ‹_›
    · cases h
  · cases h

theorem readStep_move {k : Nat} {world : σ} (h : d.readStep s k world = some s') : CompareMove d s s' := by
  unfold Comparison.readStep at h
  split at h
  · obtain ⟨c, hc, rfl⟩ := Option.map_eq_some_iff.mp h
    exact .read ‹_› ‹_› hc
  · cases h

theorem readerStep_move {k : Nat} (h : s.readerStep k = some s') : CompareMove d s s' := by
  unfold CompareState.readerStep at h
  split at h
  · rename_i hk
    split at h
    · rename_i hwrite
      cases h
      exact .wrote hk hwrite
    · rename_i hwrite
      cases h
      exact .writePanicked (List.getElem?_eq_some_iff.mp hk).1 hwrite
  · split at h
    · cases h
      exact .released ‹_›
    · cases h
  · cases h

theorem compareStep_move {a : CompareAction σ} (h : compareStep d s a = some s') : CompareMove d s s' := by
  cases a with
  | endCtx err =>
    rw [compareStep] at h
    split at h
    · cases h
      exact .ended err ‹_›
    · cases h
  | main => exact Comparison.mainStep_move h
  | cancel => exact cancelStep_move h
  | read k world => exact readStep_move h
  | reader k => exact readerStep_move h

end Inversion

/-! ### Entries -/

/-- The goroutine has written its entry. -/
def ReaderPc.hasWritten : ReaderPc → Bool
  | .reading | .writing _ => false
  | .releasing | .done => true

/-- The loop after the end of the context has filled the entries below this one that have no goroutine. -/
def ComparePc.filledTo (n : Nat) : ComparePc → Nat
  | .starting _ | .spawning _ | .panicked => 0
  | .filling j => j
  | .waiting | .returned _ => n

/-- How often the entry was written. -/
def CompareState.owed (s : CompareState) (n k : Nat) : Nat :=
  (if s.readers[k]?.any (·.hasWritten) then 1 else 0) + if s.readers.length ≤ k ∧ k < s.main.filledTo n then 1 else 0

/-- An outcome of a candidate, under its rack and slot: what its goroutine has read, or the failure of a context that
    ended. -/
structure OutcomeOf {γ σ : Type} (d : Comparison γ σ) (ctx : Option GoError) (cand : RackSlot)
    (c : CompareReadCandidate) : Prop where
  rackSlot : c.rack = cand.rack ∧ c.slot = cand.slot
  origin : (∃ world, d.read cand world = some c) ∨
    ∃ err, ctx = some err ∧ c = compareCandidateFailure cand d.req.size err

/-- The entry with this index is an outcome of its candidate. -/
def IsOutcome {γ σ : Type} (d : Comparison γ σ) (ctx : Option GoError) (i : Nat)
    (v : Option CompareReadCandidate) : Prop :=
  ∃ c cand, v = some c ∧ d.req.candidates[i]? = some cand ∧ OutcomeOf d ctx cand c

structure CompareInv {γ σ : Type} (d : Comparison γ σ) (s : CompareState) : Prop where
  sized : s.results.vals.length = d.req.candidates.length
  starting : ∀ i, s.main = .starting i → s.readers.length = i
  spawning : ∀ i, s.main = .spawning i → s.readers.length = i ∧ i < d.req.candidates.length
  filling : ∀ j, s.main = .filling j → s.readers.length ≤ j ∧ j ≤ d.req.candidates.length
  readers : s.readers.length ≤ d.req.candidates.length
  alive : s.main ≠ .panicked
  writes : ∀ k, s.results.writes.count k = s.owed d.req.candidates.length k
  outcomes : s.results.Filled none (IsOutcome d s.ctx)
  writing : ∀ k c, s.readers[k]? = some (.writing c) → IsOutcome d s.ctx k (some c)
  returned : ∀ out, s.main = .returned out →
    out = ⟨s.results.vals, rackSlotInsensitive s.results.vals⟩ ∧ ∀ pc ∈ s.readers, pc = .done

section Owed
variable {s : CompareState} (n : Nat) {k : Nat}

/-- The entry of a goroutine is written by the goroutine. -/
theorem owed_of_some {pc : ReaderPc} (hk : s.readers[k]? = some pc) :
    s.owed n k = if pc.hasWritten then 1 else 0 := by
  obtain ⟨hlt, -⟩ := List.getElem?_eq_some_iff.mp hk
  rw [CompareState.owed, hk, Option.any_some]
  exact Nat.add_eq_left.mpr (if_neg fun hand => Nat.not_le_of_lt hlt hand.1)

/-- The entry of a candidate without a goroutine is written by the loop after the end of the context. -/
theorem owed_of_ge (hk : s.readers.length ≤ k) : s.owed n k = if k < s.main.filledTo n then 1 else 0 := by
  rw [CompareState.owed, List.getElem?_eq_none hk, Option.any_none, if_neg Bool.false_ne_true, Nat.zero_add]
  exact if_congr (and_iff_right hk) rfl rfl

theorem reader_cases (s : CompareState) (k : Nat) : (∃ pc, s.readers[k]? = some pc) ∨ s.readers.length ≤ k := by
  cases hk : s.readers[k]? with
  | none => exact .inr (List.getElem?_eq_none_iff.mp hk)
  | some pc => exact .inl ⟨pc, rfl⟩

/-- `CompareRead` goes on, and fills nothing. -/
theorem owed_main {pc : ComparePc}
    (hfilled : s.readers.length ≤ k → (k < pc.filledTo n ↔ k < s.main.filledTo n)) :
    CompareState.owed { s with main := pc } n k = s.owed n k := by
  rcases reader_cases s k with ⟨rpc, hk⟩ | hk
  · rw [owed_of_some n hk]
    exact owed_of_some n hk
  · have hnew : CompareState.owed { s with main := pc } n k = _ := owed_of_ge n hk
    rw [hnew, owed_of_ge n hk]
    exact if_congr (hfilled hk) rfl rfl

/-- The loop after the end of the context fills one entry. -/
theorem owed_fill {j : Nat} (hmain : s.main = .filling j) (hlen : s.readers.length ≤ j) :
    CompareState.owed { s with main := .filling (j + 1) } n k = s.owed n k + if j = k then 1 else 0 := by
  rcases reader_cases s k with ⟨rpc, hk⟩ | hk
  · obtain ⟨hlt, -⟩ := List.getElem?_eq_some_iff.mp hk
    rw [owed_of_some n hk, if_neg (by omega : ¬j = k), Nat.add_zero]
    exact owed_of_some n hk
  · have hnew : CompareState.owed { s with main := .filling (j + 1) } n k = _ := owed_of_ge n hk
    rw [hnew, owed_of_ge n hk, hmain]
    show (if k < j + 1 then 1 else 0) = (if k < j then 1 else 0) + if j = k then 1 else 0
    split_ifs <;> omega

/-- A goroutine that goes on owes the entry of its candidate, and no other one. -/
theorem owed_set {pc : ReaderPc} (hk : s.readers[k]? = some pc) (pc' : ReaderPc) (m : Nat) :
    CompareState.owed { s with readers := s.readers.set k pc' } n m + (if k = m ∧ pc.hasWritten then 1 else 0) =
      s.owed n m + if k = m ∧ pc'.hasWritten then 1 else 0 := by
  obtain ⟨hlt, -⟩ := List.getElem?_eq_some_iff.mp hk
  unfold CompareState.owed
  by_cases hm : k = m
  · subst hm
    simp only [List.getElem?_set_self hlt, hk, List.length_set, Option.any_some, true_and]
    omega
  · simp only [List.getElem?_set_ne hm, List.length_set, hm, false_and, if_false]

/-- A new goroutine has not written. -/
theorem owed_append (hmain : s.main.filledTo n = 0) {pc : ComparePc} (hpc : pc.filledTo n = 0) :
    CompareState.owed { s with main := pc, readers := s.readers ++ [.reading] } n k = s.owed n k := by
  have hany : (s.readers ++ [.reading])[k]?.any (·.hasWritten) = s.readers[k]?.any (·.hasWritten) := by
    by_cases hk : k < s.readers.length
    · rw [List.getElem?_append_left hk]
    · rw [List.getElem?_append_right (Nat.le_of_not_lt hk), List.getElem?_eq_none (Nat.le_of_not_lt hk)]
      cases k - s.readers.length <;> rfl
  simp [CompareState.owed, hany, hmain, hpc]

end Owed

theorem compareCandidate_rackSlot {γ σ : Type} {env : Env γ σ} {req : CompareReadRequest} {cand : RackSlot} {w : σ}
    {c : CompareReadCandidate} (h : compareCandidate env req cand w = some c) :
    c.rack = cand.rack ∧ c.slot = cand.slot := by
  unfold compareCandidate at h
  split at h
  · cases h
  · cases h
    exact ⟨rfl, rfl⟩
  · split at h
    · cases h
    · cases h
      exact ⟨rfl, rfl⟩
    · cases h
      exact ⟨rfl, rfl⟩

theorem IsOutcome.ended {γ σ : Type} {d : Comparison γ σ} {i : Nat} {v : Option CompareReadCandidate} {err : GoError}
    (h : IsOutcome d none i v) : IsOutcome d (some err) i v := by
  obtain ⟨c, cand, hv, hcand, hrackSlot, hread | ⟨_, hctx, -⟩⟩ := h
  · exact ⟨c, cand, hv, hcand, hrackSlot, .inl hread⟩
  · cases hctx

namespace CompareInv
variable {γ σ : Type} {d : Comparison γ σ} {s s' : CompareState}

/-- `CompareRead` goes on, and no goroutine notices it. -/
theorem advance (h : CompareInv d s) (pc : ComparePc) (hstarting : ∀ i, pc = .starting i → s.readers.length = i)
    (hspawning : ∀ i, pc = .spawning i → s.readers.length = i ∧ i < d.req.candidates.length)
    (hfilling : ∀ j, pc = .filling j → s.readers.length ≤ j ∧ j ≤ d.req.candidates.length) (halive : pc ≠ .panicked)
    (hfilled : ∀ k, s.readers.length ≤ k →
      (k < pc.filledTo d.req.candidates.length ↔ k < s.main.filledTo d.req.candidates.length))
    (hreturned : ∀ out, pc = .returned out →
      out = ⟨s.results.vals, rackSlotInsensitive s.results.vals⟩ ∧ ∀ pc ∈ s.readers, pc = .done) :
    CompareInv d { s with main := pc } :=
  { h with
    starting := hstarting
    spawning := hspawning
    filling := hfilling
    alive := halive
    writes := fun k => (h.writes k).trans (owed_main _ (hfilled k)).symm
    returned := hreturned }

/-- Nothing has happened yet. -/
theorem idle (d : Comparison γ σ) :
    CompareInv d { main := .starting 0, results := Slots.make none d.req.candidates.length } where
  sized := List.length_replicate
  starting := by
    rintro _ ⟨⟩
    rfl
  spawning := by rintro _ ⟨⟩
  filling := by rintro _ ⟨⟩
  readers := Nat.zero_le _
  alive := by rintro ⟨⟩
  writes _ := rfl
  outcomes := Slots.filled_make _ _ _
  writing := by rintro _ _ ⟨⟩
  returned := by rintro _ ⟨⟩

theorem start (d : Comparison γ σ) : CompareInv d d.start := by
  unfold Comparison.start
  split
  · rename_i hn
    refine (idle d).advance (.returned {}) ?_ ?_ ?_ ?_ (fun k _ => ?_) ?_
    · rintro _ ⟨⟩
    · rintro _ ⟨⟩
    · rintro _ ⟨⟩
    · rintro ⟨⟩
    · rw [hn]
      rfl
    · rintro _ ⟨⟩
      rw [hn]
      exact ⟨rfl, fun _ hpc => absurd hpc List.not_mem_nil⟩
  · exact idle d

/-- No index is out of range. -/
theorem write_ne_none (h : CompareInv d s) {k : Nat} {c : Option CompareReadCandidate}
    (hk : k < d.req.candidates.length) : s.results.write k c ≠ none := by
  rw [Slots.write_of_lt c (h.sized ▸ hk)]
  exact Option.some_ne_none _

/-- The goroutine of a candidate goes on. -/
theorem setReader (h : CompareInv d s) {k : Nat} {pc : ReaderPc} (hk : s.readers[k]? = some pc) (hpc : pc ≠ .done)
    (pc' : ReaderPc) {results : Slots (Option CompareReadCandidate)}
    (hsized : results.vals.length = d.req.candidates.length)
    (hwrites : ∀ m, results.writes.count m + (if k = m ∧ pc.hasWritten then 1 else 0) =
      s.results.writes.count m + if k = m ∧ pc'.hasWritten then 1 else 0)
    (houtcomes : results.Filled none (IsOutcome d s.ctx))
    (hwriting : ∀ c, pc' = .writing c → IsOutcome d s.ctx k (some c)) :
    CompareInv d { s with readers := s.readers.set k pc', results } where
  sized := hsized
  starting i hi := (List.length_set ..).trans (h.starting i hi)
  spawning i hi := by
    rw [List.length_set]
    exact h.spawning i hi
  filling j hj := by
    rw [List.length_set]
    exact h.filling j hj
  readers := (List.length_set ..).trans_le h.readers
  alive := h.alive
  writes m := by
    have hcount := hwrites m
    rw [h.writes m, ← owed_set d.req.candidates.length hk pc' m] at hcount
    exact Nat.add_right_cancel hcount
  outcomes := houtcomes
  writing m c hm := by
    rw [List.getElem?_set] at hm
    split at hm
    · rename_i heq
      subst heq
      split at hm
      · cases hm
        exact hwriting c rfl
      · cases hm
    · exact h.writing m c hm
  returned out hout := absurd ((h.returned out hout).2 pc (List.mem_of_getElem? hk)) hpc

theorem step (h : CompareInv d s) (hmove : CompareMove d s s') : CompareInv d s' := by
  cases hmove with
  | ended err hctx =>
    have houtcome : ∀ i v, IsOutcome d s.ctx i v → IsOutcome d (some err) i v := by
      intro i v hv
      rw [hctx] at hv
      exact hv.ended
    exact { h with
      outcomes := h.outcomes.mono houtcome
      writing := fun k c hk => houtcome k _ (h.writing k c hk) }
  | @acquired i hmain hi hsem =>
    refine { h.advance (.spawning i) nofun ?_ nofun nofun ?_ nofun with }
    · rintro _ ⟨⟩
      exact ⟨h.starting i hmain, hi⟩
    · intro k _
      rw [hmain]
      rfl
  | @allStarted i hmain hi =>
    have hlen := h.starting i hmain
    refine h.advance .waiting nofun nofun nofun nofun (fun k hk => ?_) nofun
    rw [hmain]
    simp only [ComparePc.filledTo]
    omega
  | @canceled i err hmain hi hctx =>
    have hlen := h.starting i hmain
    refine h.advance (.filling i) nofun nofun ?_ nofun (fun k hk => ?_) nofun
    · rintro _ ⟨⟩
      omega
    · rw [hmain]
      simp only [ComparePc.filledTo]
      omega
  | @spawned i hmain =>
    obtain ⟨hlen, hi⟩ := h.spawning i hmain
    have hsucc : (s.readers ++ [ReaderPc.reading]).length = i + 1 := by simp [hlen]
    exact
      { sized := h.sized
        starting := by
          rintro _ ⟨⟩
          exact hsucc
        spawning := nofun
        filling := nofun
        readers := hsucc.trans_le hi
        alive := nofun
        writes := fun k => (h.writes k).trans (owed_append _ (by rw [hmain]; rfl) rfl).symm
        outcomes := h.outcomes
        writing := fun k c hk => by
          by_cases hlt : k < s.readers.length
          · rw [List.getElem?_append_left hlt] at hk
            exact h.writing k c hk
          · rw [List.getElem?_append_right (Nat.le_of_not_lt hlt)] at hk
            cases List.mem_singleton.mp (List.mem_of_getElem? hk)
        returned := nofun }
  | @filled j cand err results hmain hcand hctx hwrite =>
    obtain ⟨hlen, -⟩ := h.filling j hmain
    obtain ⟨hj, -⟩ := List.getElem?_eq_some_iff.mp hcand
    obtain ⟨-, rfl⟩ := Slots.write_eq_some.mp hwrite
    exact
      { sized := (List.length_set ..).trans h.sized
        starting := nofun
        spawning := nofun
        filling := by
          rintro _ ⟨⟩
          exact ⟨Nat.le_succ_of_le hlen, hj⟩
        readers := h.readers
        alive := nofun
        writes := fun k => by
          refine Eq.trans ?_ (owed_fill _ hmain hlen).symm
          simp only [List.count_cons, h.writes k, beq_iff_eq]
        outcomes := h.outcomes.write ⟨_, cand, rfl, hcand, ⟨rfl, rfl⟩, .inr ⟨err, hctx, rfl⟩⟩
        writing := h.writing
        returned := nofun }
  | @allFilled j hmain hj =>
    have hlen := h.filling j hmain
    refine h.advance .waiting nofun nofun nofun nofun (fun k hk => ?_) nofun
    rw [hmain]
    simp only [ComparePc.filledTo]
    omega
  | returned hmain hall =>
    refine h.advance _ nofun nofun nofun nofun (fun k _ => ?_) ?_
    · rw [hmain]
      rfl
    · rintro _ ⟨⟩
      exact ⟨rfl, hall⟩
  | @read k cand world c hk hcand hread =>
    refine h.setReader hk nofun (.writing c) h.sized (fun _ => rfl) h.outcomes ?_
    rintro _ ⟨⟩
    exact ⟨c, cand, rfl, hcand, compareCandidate_rackSlot hread, .inl ⟨world, hread⟩⟩
  | @wrote k c results hk hwrite =>
    obtain ⟨-, rfl⟩ := Slots.write_eq_some.mp hwrite
    refine h.setReader hk nofun .releasing ((List.length_set ..).trans h.sized) (fun m => ?_)
      (h.outcomes.write (h.writing k c hk)) ?_
    · simp [ReaderPc.hasWritten, List.count_cons]
    · rintro _ ⟨⟩
  | released hk =>
    refine { h.setReader hk nofun .done h.sized (fun _ => rfl) h.outcomes ?_ with }
    rintro _ ⟨⟩
  | fillPanicked hj hwrite => exact absurd hwrite (h.write_ne_none hj)
  | writePanicked hk hwrite => exact absurd hwrite (h.write_ne_none (hk.trans_le h.readers))

theorem of_run {as : List (CompareAction σ)} (hrun : Go.run (compareStep d) d.start as = some s) : CompareInv d s :=
  run_invariant (fun _ _ _ h hstep => h.step (compareStep_move hstep)) (start d) hrun

/-- No entry is written twice. -/
theorem once (h : CompareInv d s) : s.results.writes.Nodup := by
  refine List.nodup_iff_count_le_one.mpr fun k => ?_
  rw [h.writes k]
  rcases reader_cases s k with ⟨pc, hk⟩ | hk
  · rw [owed_of_some _ hk]
    split <;> decide
  · rw [owed_of_ge _ hk]
    split <;> decide

/-- When the call has returned, every entry was written. -/
theorem all_written (h : CompareInv d s) {out : CompareReadResult} (hmain : s.main = .returned out) {k : Nat}
    (hlt : k < d.req.candidates.length) : s.results.writes.count k = 1 := by
  rw [h.writes k]
  rcases reader_cases s k with ⟨pc, hk⟩ | hk
  · rw [owed_of_some _ hk, (h.returned out hmain).2 pc (List.mem_of_getElem? hk)]
    rfl
  · rw [owed_of_ge _ hk, hmain]
    exact if_pos hlt

/-- When the call has returned, the entries are the outcomes of the candidates, in their order. -/
theorem entries (h : CompareInv d s) {out : CompareReadResult} (hmain : s.main = .returned out) :
    ∃ cs : List CompareReadCandidate, s.results.vals = cs.map some ∧
      List.Forall₂ (OutcomeOf d s.ctx) d.req.candidates cs := by
  have hentry : ∀ i v, s.results.vals[i]? = some v → IsOutcome d s.ctx i v := by
    intro i v hv
    obtain ⟨hlt, -⟩ := List.getElem?_eq_some_iff.mp hv
    have hcount := h.all_written hmain (h.sized ▸ hlt)
    rcases h.outcomes i v hv with ⟨hfresh, -⟩ | ⟨-, houtcome⟩
    · exact absurd (List.count_pos_iff.mp (by omega)) hfresh
    · exact houtcome
  have hsome : ∀ v ∈ s.results.vals, ∃ c, v = some c := by
    intro v hv
    obtain ⟨i, hi⟩ := List.mem_iff_getElem?.mp hv
    obtain ⟨c, -, hc, -⟩ := hentry i v hi
    exact ⟨c, hc⟩
  obtain ⟨cs, hvals⟩ := exists_map_some hsome
  refine ⟨cs, hvals, List.forall₂_iff_get.mpr ⟨?_, fun i hi hi' => ?_⟩⟩
  · rw [← h.sized, hvals, List.length_map]
  · have hv : s.results.vals[i]? = some (some (cs.get ⟨i, hi'⟩)) := by
      rw [hvals, List.getElem?_map, List.getElem?_eq_getElem hi']
      rfl
    obtain ⟨c, cand, hc, hcand, houtcome⟩ := hentry i _ hv
    obtain rfl := Option.some.inj hc
    obtain ⟨_, rfl⟩ := List.getElem?_eq_some_iff.mp hcand
    exact houtcome

end CompareInv

/-! ### Progress -/

/-- The goroutine has a token in the semaphore. -/
def ReaderPc.holdsToken : ReaderPc → Bool
  | .reading | .writing _ | .releasing => true
  | .done => false

/-- `CompareRead` has sent the token of the goroutine that it starts next. -/
def ComparePc.holdsToken : ComparePc → Bool
  | .spawning _ => true
  | .starting _ | .filling _ | .waiting | .returned _ | .panicked => false

/-- The tokens in the semaphore are those of the goroutines that run, and never more than the parallelism. -/
structure SemInv {γ σ : Type} (d : Comparison γ σ) (s : CompareState) : Prop where
  tokens : s.sem = s.readers.countP (·.holdsToken) + if s.main.holdsToken then 1 else 0
  bounded : s.sem ≤ d.parallelism
  ended : ∀ j, s.main = .filling j → s.ctx ≠ none

theorem parallelism_pos {γ σ : Type} (d : Comparison γ σ) : 0 < d.parallelism := by
  unfold Comparison.parallelism
  split <;> omega

namespace SemInv
variable {γ σ : Type} {d : Comparison γ σ} {s s' : CompareState}

theorem start (d : Comparison γ σ) : SemInv d d.start := by
  unfold Comparison.start
  have hpos := parallelism_pos d
  split
  · exact ⟨rfl, hpos.le, by rintro _ ⟨⟩⟩
  · exact ⟨rfl, hpos.le, by rintro _ ⟨⟩⟩

/-- `CompareRead` goes on without a token. -/
theorem advance (h : SemInv d s) (hmain : s.main.holdsToken = false) {pc : ComparePc} (hpc : pc.holdsToken = false)
    (hended : ∀ j, pc = .filling j → s.ctx ≠ none) {results : Slots (Option CompareReadCandidate)} :
    SemInv d { s with main := pc, results } where
  tokens := by
    have htokens := h.tokens
    rwa [hmain, ← hpc] at htokens
  bounded := h.bounded
  ended := hended

/-- A goroutine goes on, and keeps its token or gives it back. -/
theorem setReader (h : SemInv d s) {k : Nat} {pc : ReaderPc} (hk : s.readers[k]? = some pc) (hpc : pc.holdsToken = true)
    (pc' : ReaderPc) {sem : Nat} (hsem : sem + 1 = s.sem + if pc'.holdsToken then 1 else 0)
    {results : Slots (Option CompareReadCandidate)} :
    SemInv d { s with readers := s.readers.set k pc', sem, results } := by
  have hle : sem ≤ s.sem := by
    split at hsem <;> omega
  refine ⟨?_, (Int.ofNat_le.mpr hle).trans h.bounded, h.ended⟩
  have hset := countP_set_ite (p := (·.holdsToken)) hk pc'
  rw [if_pos hpc] at hset
  have htokens := h.tokens
  dsimp only
  omega

theorem step (h : SemInv d s) (hi : CompareInv d s) (hmove : CompareMove d s s') : SemInv d s' := by
  cases hmove with
  | ended err hctx => exact { h with ended := fun _ _ => Option.some_ne_none _ }
  | acquired hmain _ hsem =>
    have htokens := h.tokens
    rw [hmain] at htokens
    exact ⟨congrArg (· + 1) htokens, Int.add_one_le_of_lt hsem, by rintro _ ⟨⟩⟩
  | allStarted hmain => exact h.advance (by rw [hmain]; rfl) rfl (by rintro _ ⟨⟩)
  | canceled hmain _ hctx => exact h.advance (by rw [hmain]; rfl) rfl fun _ _ => by simp [hctx]
  | spawned hmain =>
    have htokens := h.tokens
    rw [hmain] at htokens
    refine ⟨?_, h.bounded, by rintro _ ⟨⟩⟩
    rw [List.countP_append]
    exact htokens
  | filled hmain _ hctx => exact h.advance (by rw [hmain]; rfl) rfl fun _ _ => by simp [hctx]
  | allFilled hmain => exact h.advance (by rw [hmain]; rfl) rfl (by rintro _ ⟨⟩)
  | returned hmain => exact h.advance (by rw [hmain]; rfl) rfl (by rintro _ ⟨⟩)
  | read hk => exact h.setReader hk rfl (.writing _) rfl
  | wrote hk => exact h.setReader hk rfl .releasing rfl
  | released hk =>
    have hpos : 0 < s.readers.countP (·.holdsToken) := List.countP_pos_iff.mpr ⟨_, List.mem_of_getElem? hk, rfl⟩
    have htokens := h.tokens
    exact h.setReader hk rfl .done (Nat.sub_add_cancel (by omega))
  | fillPanicked hj hwrite => exact absurd hwrite (hi.write_ne_none hj)
  | writePanicked hk hwrite => exact absurd hwrite (hi.write_ne_none (hk.trans_le hi.readers))

theorem of_run {as : List (CompareAction σ)} (hrun : Go.run (compareStep d) d.start as = some s) : SemInv d s :=
  (run_invariant (P := fun s => CompareInv d s ∧ SemInv d s)
    (fun _ _ _ h hstep => ⟨h.1.step (compareStep_move hstep), h.2.step h.1 (compareStep_move hstep)⟩)
    ⟨.start d, start d⟩ hrun).2

/-- A goroutine that has not ended can go on if its read can end. -/
theorem reader_goes_on (h : SemInv d s) (hi : CompareInv d s)
    (hread : ∀ cand ∈ d.req.candidates, ∃ world c, d.read cand world = some c) {pc : ReaderPc} (hpc : pc ∈ s.readers)
    (hbusy : pc.holdsToken = true) : ∃ a s', compareStep d s a = some s' := by
  obtain ⟨k, hk⟩ := List.mem_iff_getElem?.mp hpc
  have hlt : k < d.req.candidates.length := (List.getElem?_eq_some_iff.mp hk).1.trans_le hi.readers
  cases pc with
  | reading =>
    have hcand := List.getElem?_eq_getElem hlt
    obtain ⟨world, c, hc⟩ := hread _ (List.mem_of_getElem? hcand)
    refine ⟨.read k world, { s with readers := s.readers.set k (.writing c) }, ?_⟩
    simp only [compareStep, Comparison.readStep, hk, hcand, hc, Option.map_some]
  | writing c =>
    obtain ⟨results, hwrite⟩ := Option.ne_none_iff_exists'.mp (hi.write_ne_none (c := some c) hlt)
    refine ⟨.reader k, { s with readers := s.readers.set k .releasing, results }, ?_⟩
    simp only [compareStep, CompareState.readerStep, hk, hwrite]
  | releasing =>
    have hpos : 0 < s.readers.countP (·.holdsToken) := List.countP_pos_iff.mpr ⟨_, hpc, hbusy⟩
    have htokens := h.tokens
    refine ⟨.reader k, { s with readers := s.readers.set k .done, sem := s.sem - 1 }, ?_⟩
    simp only [compareStep, CompareState.readerStep, hk]
    exact if_pos (by omega)
  | done => cases hbusy

/-- A call that has not returned can go on: no thread waits for a token that nobody gives back. -/
theorem goes_on (h : SemInv d s) (hi : CompareInv d s)
    (hread : ∀ cand ∈ d.req.candidates, ∃ world c, d.read cand world = some c)
    (hmain : ∀ out, s.main ≠ .returned out) : ∃ a s', compareStep d s a = some s' := by
  cases hpc : s.main with
  | starting i =>
    by_cases hi' : i < d.req.candidates.length
    · by_cases hsem : s.sem < d.parallelism
      · refine ⟨.main, { s with main := .spawning i, sem := s.sem + 1 }, ?_⟩
        simp only [compareStep, Comparison.mainStep, hpc, if_pos hi', if_pos hsem]
      · have hpos := parallelism_pos d
        have htokens := h.tokens
        rw [hpc] at htokens
        obtain ⟨pc, hmem, hbusy⟩ := List.countP_pos_iff.mp (show 0 < s.readers.countP (·.holdsToken) by
          simp only [ComparePc.holdsToken, Bool.false_eq_true, if_false] at htokens
          omega)
        exact h.reader_goes_on hi hread hmem hbusy
    · refine ⟨.main, { s with main := .waiting }, ?_⟩
      simp only [compareStep, Comparison.mainStep, hpc, if_neg hi']
  | spawning i =>
    refine ⟨.main, { s with main := .starting (i + 1), readers := s.readers ++ [.reading] }, ?_⟩
    simp only [compareStep, Comparison.mainStep, hpc]
  | filling j =>
    obtain ⟨err, hctx⟩ := Option.ne_none_iff_exists'.mp (h.ended j hpc)
    cases hcand : d.req.candidates[j]? with
    | none =>
      refine ⟨.main, { s with main := .waiting }, ?_⟩
      simp only [compareStep, Comparison.mainStep, hpc, hcand]
    | some cand =>
      have hlt := (List.getElem?_eq_some_iff.mp hcand).1
      obtain ⟨results, hwrite⟩ := Option.ne_none_iff_exists'.mp
        (hi.write_ne_none (c := some (compareCandidateFailure cand d.req.size err)) hlt)
      refine ⟨.main, { s with main := .filling (j + 1), results }, ?_⟩
      simp only [compareStep, Comparison.mainStep, hpc, hcand, hctx, hwrite]
  | waiting =>
    by_cases hall : ∃ pc ∈ s.readers, pc.holdsToken = true
    · obtain ⟨pc, hmem, hbusy⟩ := hall
      exact h.reader_goes_on hi hread hmem hbusy
    · have hdone : s.readers.all (· == .done) = true := by
        refine List.all_eq_true.mpr fun pc hmem => ?_
        cases pc with
        | done => rfl
        | _ => exact absurd ⟨_, hmem, rfl⟩ hall
      refine ⟨.main, { s with main := .returned ⟨s.results.vals, rackSlotInsensitive s.results.vals⟩ }, ?_⟩
      simp only [compareStep, Comparison.mainStep, hpc, hdone, if_true]
  | returned out => exact absurd hpc (hmain out)
  | panicked => exact absurd hpc hi.alive

end SemInv

/-- How many steps the goroutine has left. -/
def ReaderPc.stepsLeft : ReaderPc → Nat
  | .reading => 3
  | .writing _ => 2
  | .releasing => 1
  | .done => 0

/-- How many steps `CompareRead` and the goroutines that it has yet to start have left, at most. -/
def ComparePc.stepsLeft (n : Nat) : ComparePc → Nat
  | .starting i => 5 * (n - i) + 2
  | .spawning i => 5 * (n - i) + 1
  | .filling j => n - j + 2
  | .waiting => 1
  | .returned _ | .panicked => 0

/-- How many actions a call has left, at most; the end of the context is one of them. -/
def CompareState.stepsLeft (s : CompareState) (n : Nat) : Nat :=
  (if s.ctx = none then 1 else 0) + s.main.stepsLeft n + (s.readers.map (·.stepsLeft)).sum

section Steps
variable {γ σ : Type} {d : Comparison γ σ} {s s' : CompareState}

theorem stepsLeft_main (n : Nat) {pc : ComparePc} (hpc : pc.stepsLeft n < s.main.stepsLeft n) {sem : Nat}
    {results : Slots (Option CompareReadCandidate)} :
    CompareState.stepsLeft { s with main := pc, sem, results } n < s.stepsLeft n :=
  Nat.add_lt_add_right (Nat.add_lt_add_left hpc _) _

theorem stepsLeft_reader (n : Nat) {k : Nat} {pc : ReaderPc} (hk : s.readers[k]? = some pc) (pc' : ReaderPc)
    (hpc : pc'.stepsLeft < pc.stepsLeft) {sem : Nat} {results : Slots (Option CompareReadCandidate)} :
    CompareState.stepsLeft { s with readers := s.readers.set k pc', sem, results } n < s.stepsLeft n := by
  have hsum := sum_map_set (·.stepsLeft) hk pc'
  simp only [CompareState.stepsLeft]
  omega

/-- Every action is one of the steps that are left. -/
theorem CompareMove.stepsLeft_lt (hmove : CompareMove d s s') (hi : CompareInv d s) :
    s'.stepsLeft d.req.candidates.length < s.stepsLeft d.req.candidates.length := by
  cases hmove with
  | ended err hctx =>
    simp only [CompareState.stepsLeft, hctx, reduceCtorEq, if_true, if_false]
    omega
  | acquired hmain =>
    refine stepsLeft_main _ ?_
    rw [hmain]
    exact Nat.lt_succ_self _
  | allStarted hmain =>
    refine stepsLeft_main _ ?_
    rw [hmain]
    exact Nat.le_add_left ..
  | canceled hmain hlt =>
    refine stepsLeft_main _ ?_
    rw [hmain]
    simp only [ComparePc.stepsLeft]
    omega
  | spawned hmain =>
    have hlt := (hi.spawning _ hmain).2
    simp only [CompareState.stepsLeft, hmain, ComparePc.stepsLeft, List.map_append, List.map_cons, List.map_nil,
      List.sum_append, List.sum_cons, List.sum_nil, ReaderPc.stepsLeft]
    omega
  | filled hmain hcand =>
    have hlt := (List.getElem?_eq_some_iff.mp hcand).1
    refine stepsLeft_main _ ?_
    rw [hmain]
    simp only [ComparePc.stepsLeft]
    omega
  | allFilled hmain =>
    refine stepsLeft_main _ ?_
    rw [hmain]
    exact Nat.le_add_left ..
  | returned hmain =>
    refine stepsLeft_main _ ?_
    rw [hmain]
    exact Nat.one_pos
  | read hk => exact stepsLeft_reader _ hk (.writing _) (Nat.lt_succ_self 2)
  | wrote hk => exact stepsLeft_reader _ hk .releasing (Nat.lt_succ_self 1)
  | released hk => exact stepsLeft_reader _ hk .done (Nat.lt_succ_self 0)
  | fillPanicked hj hwrite => exact absurd hwrite (hi.write_ne_none hj)
  | writePanicked hk hwrite => exact absurd hwrite (hi.write_ne_none (hk.trans_le hi.readers))

theorem stepsLeft_start (d : Comparison γ σ) :
    d.start.stepsLeft d.req.candidates.length ≤ 5 * d.req.candidates.length + 3 := by
  unfold Comparison.start CompareState.stepsLeft
  split
  · simp [ComparePc.stepsLeft]
  · simp only [ComparePc.stepsLeft, List.map_nil, List.sum_nil, if_true]
    omega

/-- Every run ends. -/
theorem length_compareRun_le {as : List (CompareAction σ)} (hrun : Go.run (compareStep d) d.start as = some s) :
    as.length ≤ 5 * d.req.candidates.length + 3 := by
  have hle := run_length_le (P := CompareInv d) (μ := (·.stepsLeft d.req.candidates.length))
    (fun _ _ _ h hstep => ⟨h.step (compareStep_move hstep), (compareStep_move hstep).stepsLeft_lt h⟩) (.start d) hrun
  have hstart := stepsLeft_start d
  omega

end Steps

/-- Every interleaving of a call of `CompareRead` ends, and, unless a goroutine panics, it ends with the return of the
    call. An entry is written at most once; when the call has returned, every entry was written and holds the outcome of
    its candidate, and the verdict is right. -/
theorem compare_read_exact {γ σ : Type} (d : Comparison γ σ) (as : List (CompareAction σ)) (s : CompareState)
    (hrun : Go.run (compareStep d) d.start as = some s) :
    as.length ≤ 5 * d.req.candidates.length + 3 ∧
      ((∀ cand ∈ d.req.candidates, ∃ world c, d.read cand world = some c) → (∀ a, compareStep d s a = none) →
        ∃ out, s.main = .returned out) ∧
      s.results.writes.Nodup ∧
      ∀ out, s.main = .returned out →
        (∀ i, i < d.req.candidates.length → s.results.writes.count i = 1) ∧
          ∃ cs : List CompareReadCandidate, out.byCandidate = cs.map some ∧
            List.Forall₂ (OutcomeOf d s.ctx) d.req.candidates cs ∧
            (out.rackSlotInsensitive = true ↔
              2 ≤ d.req.candidates.length ∧ (∀ c ∈ cs, c.result.status = .success) ∧
                ∀ c ∈ cs, ∀ c' ∈ cs, c.result.data = c'.result.data) := by
  have h := CompareInv.of_run hrun
  refine ⟨length_compareRun_le hrun, fun hread hstuck => ?_, h.once,
    fun out hmain => ⟨fun i hi => h.all_written hmain hi, ?_⟩⟩
  · by_contra hmain
    obtain ⟨a, s', hstep⟩ := (SemInv.of_run hrun).goes_on h hread fun out hout => hmain ⟨out, hout⟩
    rw [hstuck a] at hstep
    cases hstep
  · obtain ⟨rfl, -⟩ := h.returned out hmain
    obtain ⟨cs, hvals, hcs⟩ := h.entries hmain
    refine ⟨cs, hvals, hcs, ?_⟩
    rw [hcs.length_eq, hvals]
    exact rackSlotInsensitive_iff cs

/-- Two candidates that nobody answers for. -/
def silentComparison : Comparison Unit Unit where
  env _ :=
    { ctxErr := fun w => (none, w), wait := fun w => (none, w), dialCOTP := fun _ _ w => (.error (.text "refused"), w)
      writeTSDU := fun _ _ w => (none, w), readTSDU := fun _ w => (.ok [], w), close := fun _ w => (none, w) }
  req := { address := "10.0.0.1", candidates := [⟨0, 1⟩, ⟨0, 2⟩], area := areaDB, dbNumber := 1, size := 2 }

/-- The context ends while the first candidate is read. -/
def halfRun : List (CompareAction Unit) :=
  [.main, .main, .endCtx (.sentinel .canceled), .cancel, .main, .read 0 (), .main, .reader 0, .reader 0, .main]

def halfState : CompareState where
  ctx := some (.sentinel .canceled)
  main := .returned
    { byCandidate := [some (compareCandidateFailure ⟨0, 1⟩ 2 (.text "refused")),
        some (compareCandidateFailure ⟨0, 2⟩ 2 (.sentinel .canceled))] }
  readers := [.done]
  results := ⟨[some (compareCandidateFailure ⟨0, 1⟩ 2 (.text "refused")),
    some (compareCandidateFailure ⟨0, 2⟩ 2 (.sentinel .canceled))], [0, 1]⟩

theorem compare_read_exact_half :
    Go.run (compareStep silentComparison) silentComparison.start halfRun = some halfState ∧
      halfState.results.writes.Nodup ∧
        ∀ i, i < silentComparison.req.candidates.length → halfState.results.writes.count i = 1 := by
  have hrun : Go.run (compareStep silentComparison) silentComparison.start halfRun = some halfState := rfl
  obtain ⟨-, -, hnodup, hreturned⟩ := compare_read_exact silentComparison halfRun halfState hrun
  exact ⟨hrun, hnodup, (hreturned _ rfl).1⟩

end S7Comm
