import S7Comm.Lib.Bytes

/-! The errors that a call can return. A property of errors is shown part by part: every part of a sequence fails with
    such errors only, in the states that the parts before it leave behind. -/

namespace Go

/-! ### Calls without a state -/

/-- The call fails only with errors that satisfy `Q`. -/
def Outcome.FailsOnly {ε α : Type} (Q : ε → Prop) (x : Outcome ε α) : Prop := ∀ e, x = .fail e → Q e

namespace Outcome
variable {ε α β : Type} {Q R : ε → Prop}

theorem FailsOnly.mono {x : Outcome ε α} (hx : FailsOnly Q x) (h : ∀ e, Q e → R e) : FailsOnly R x :=
  fun e he => h e (hx e he)

theorem failsOnly_ok (a : α) : FailsOnly Q (.ok a : Outcome ε α) := nofun

theorem failsOnly_panic : FailsOnly Q (.panic : Outcome ε α) := nofun

theorem failsOnly_fail {e : ε} (h : Q e) : FailsOnly Q (.fail e : Outcome ε α) := by
  rintro _ ⟨⟩
  exact h

theorem FailsOnly.bind {x : Outcome ε α} {f : α → Outcome ε β} (hx : FailsOnly Q x) (hf : ∀ a, FailsOnly Q (f a)) :
    FailsOnly Q (x >>= f) := by
  intro e h
  rcases bind_eq_fail.mp h with hfail | ⟨a, -, hfail⟩
  · exact hx e hfail
  · exact hf a e hfail

end Outcome

section Index
variable {ε α : Type} {Q : ε → Prop}

theorem failsOnly_index (b : List α) (i : Nat) : Outcome.FailsOnly Q (index b i : Outcome ε α) := by
  unfold index
  split
  · exact Outcome.failsOnly_ok _
  · exact Outcome.failsOnly_panic

theorem failsOnly_slice (b : List α) (lo hi : Nat) : Outcome.FailsOnly Q (slice b lo hi : Outcome ε (List α)) := by
  unfold slice
  split
  · exact Outcome.failsOnly_ok _
  · exact Outcome.failsOnly_panic

theorem failsOnly_uint16At (b : Bytes) (i : Nat) : Outcome.FailsOnly Q (uint16At b i : Outcome ε UInt16) := by
  refine (failsOnly_slice b i (i + 2)).bind fun s => ?_
  unfold uint16
  split
  · exact Outcome.failsOnly_ok _
  · exact Outcome.failsOnly_panic

end Index

/-! ### Calls with a state -/

namespace Eff
variable {σ ε α β : Type} {P : σ → Prop} {Q : ε → Prop}

/-- From states with `P` on, the call keeps `P` and fails only with errors that satisfy `Q`. -/
structure FailsOnly (P : σ → Prop) (Q : ε → Prop) (x : Eff σ ε α) : Prop where
  keeps : Preserves P x
  error : ∀ s, P s → (x s).1.FailsOnly Q

theorem failsOnly_pure (a : α) : FailsOnly P Q (pure a : Eff σ ε α) := ⟨fun _ h => h, fun _ _ => nofun⟩

theorem failsOnly_fail {e : ε} (h : Q e) : FailsOnly P Q (fail e : Eff σ ε α) :=
  ⟨preserves_fail e, fun _ _ => Outcome.failsOnly_fail h⟩

theorem failsOnly_lift {x : Outcome ε α} (h : x.FailsOnly Q) : FailsOnly P Q (liftM x : Eff σ ε α) :=
  ⟨preserves_lift x, fun _ _ => h⟩

theorem FailsOnly.bind {x : Eff σ ε α} {f : α → Eff σ ε β} (hx : FailsOnly P Q x) (hf : ∀ a, FailsOnly P Q (f a)) :
    FailsOnly P Q (x >>= f) := by
  refine ⟨hx.keeps.bind fun a => (hf a).keeps, fun s hs e h => ?_⟩
  have hkept := hx.keeps s hs
  have hfail := hx.error s hs
  rw [bind_apply] at h
  rcases hrun : x s with ⟨a | e' | _, s₁⟩ <;> rw [hrun] at h hkept hfail
  · exact (hf a).error s₁ hkept e h
  · cases h
    exact hfail e rfl
  · cases h

theorem failsOnly_lift_bind {x : Outcome ε α} {f : α → Eff σ ε β} (hx : x.FailsOnly Q)
    (hf : ∀ a, x = .ok a → FailsOnly P Q (f a)) : FailsOnly P Q ((liftM x : Eff σ ε α) >>= f) := by
  cases x with
  | ok a => exact hf a rfl
  | fail e => exact failsOnly_fail (hx e rfl)
  | panic => exact ⟨fun _ h => h, fun _ _ => nofun⟩

/-- A call that looks at the state first. -/
theorem failsOnly_get_bind {f : σ → Eff σ ε α} (h : ∀ s, P s → FailsOnly P Q (f s)) : FailsOnly P Q (get >>= f) :=
  ⟨fun s hs => (h s hs).keeps s hs, fun s hs => (h s hs).error s hs⟩

end Eff
end Go
