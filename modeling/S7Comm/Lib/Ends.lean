import S7Comm.Lib.Outcome

/-! Calls that keep an invariant of the state and end as a postcondition says: with a value, with an error or with a
    panic. The rules follow the ways in which calls are put together. -/

namespace Go.Eff
variable {σ ε α β : Type} {P : σ → Prop}

/-- From states with `P` on, the call keeps `P` and ends as `R` says. -/
def Ends (P : σ → Prop) (x : Eff σ ε α) (R : Outcome ε α → Prop) : Prop := ∀ s, P s → P (x s).2 ∧ R (x s).1

/-- The call ends with an error. -/
def Failed (r : Outcome ε α) : Prop := ∃ e, r = .fail e

theorem Ends.mono {x : Eff σ ε α} {R S : Outcome ε α → Prop} (h : Ends P x R) (hRS : ∀ r, R r → S r) : Ends P x S :=
  fun s hs => ⟨(h s hs).1, hRS _ (h s hs).2⟩

theorem ends_pure {R : Outcome ε α → Prop} {a : α} (h : R (.ok a)) : Ends P (pure a : Eff σ ε α) R := fun _ hs => ⟨hs, h⟩

theorem ends_fail (e : ε) : Ends P (fail e : Eff σ ε α) Failed := fun _ hs => ⟨hs, e, rfl⟩

theorem ends_lift {R : Outcome ε α → Prop} {x : Outcome ε α} (h : R x) : Ends P (liftM x : Eff σ ε α) R :=
  fun _ hs => ⟨hs, h⟩

theorem ends_ok {a : α} : Ends P (liftM (Outcome.ok a : Outcome ε α) : Eff σ ε α) fun r => ∃ b, r = .ok b ∧ b = a :=
  fun _ hs => ⟨hs, a, rfl, rfl⟩

/-- The rule of sequence: what the first call may end with decides on the rest. -/
theorem Ends.bind {x : Eff σ ε α} {f : α → Eff σ ε β} {R : Outcome ε α → Prop} {S : Outcome ε β → Prop}
    (hx : Ends P x R) (hok : ∀ a, R (.ok a) → Ends P (f a) S) (hfail : ∀ e, R (.fail e) → S (.fail e))
    (hpanic : R .panic → S .panic) : Ends P (x >>= f) S := by
  intro s hs
  obtain ⟨hP, hR⟩ := hx s hs
  rw [bind_apply]
  rcases h : x s with ⟨a | e | _, s'⟩ <;> rw [h] at hP hR
  · exact hok a hR s' hP
  · exact ⟨hP, hfail e hR⟩
  · exact ⟨hP, hpanic hR⟩

/-- A call that always succeeds, followed by another. -/
theorem Ends.bind_ok {x : Eff σ ε α} {f : α → Eff σ ε β} {Q : α → Prop} {S : Outcome ε β → Prop}
    (hx : Ends P x fun r => ∃ a, r = .ok a ∧ Q a) (hf : ∀ a, Q a → Ends P (f a) S) : Ends P (x >>= f) S := by
  refine hx.bind ?_ ?_ ?_
  · rintro a ⟨a', ha, hQ⟩
    cases ha
    exact hf a hQ
  · rintro e ⟨a, ha, -⟩
    cases ha
  · rintro ⟨a, ha, -⟩
    cases ha

/-- What comes after a call that always fails does not matter. -/
theorem Ends.bind_failed {x : Eff σ ε α} (hx : Ends P x Failed) (f : α → Eff σ ε β) : Ends P (x >>= f) Failed := by
  refine hx.bind ?_ ?_ ?_
  · rintro a ⟨e, he⟩
    cases he
  · exact fun e _ => ⟨e, rfl⟩
  · rintro ⟨e, he⟩
    cases he

theorem ends_get : Ends P (get : Eff σ ε σ) fun r => ∃ s, r = .ok s ∧ P s := fun s hs => ⟨hs, s, rfl, hs⟩

/-- A call that always succeeds hands its value over. -/
theorem Ends.attempt_ok {x : Eff σ ε α} {Q : α → Prop} (hx : Ends P x fun r => ∃ a, r = .ok a ∧ Q a) :
    Ends P (attempt x) fun r => ∃ b, r = .ok b ∧ ∃ a, b = Except.ok a ∧ Q a := by
  intro s hs
  obtain ⟨hP, a, ha, hQ⟩ := hx s hs
  obtain ⟨s', hs'⟩ : ∃ s', x s = (.ok a, s') := ⟨(x s).2, Prod.ext ha rfl⟩
  rw [hs'] at hP
  rw [Eff.attempt_ok hs']
  exact ⟨hP, _, rfl, a, rfl, hQ⟩

/-- A call that always fails hands its error over. -/
theorem Ends.attempt_failed {x : Eff σ ε α} (hx : Ends P x Failed) :
    Ends P (attempt x) fun r => ∃ a, r = .ok a ∧ ∃ e, a = Except.error e := by
  intro s hs
  obtain ⟨hP, e, he⟩ := hx s hs
  obtain ⟨s', hs'⟩ : ∃ s', x s = (.fail e, s') := ⟨(x s).2, Prod.ext he rfl⟩
  rw [hs'] at hP
  rw [attempt_fail hs']
  exact ⟨hP, _, rfl, e, rfl⟩

end Go.Eff
