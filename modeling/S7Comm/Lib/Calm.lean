import S7Comm.Lib.Ends

/-! Calls that keep an invariant of the state and, under a condition on what they meet, do not panic. The condition is
    a parameter, so that the rules serve both for what a call leaves behind in any case and for its bounds. -/

namespace Go

/-- A function that only gives errors another form. -/
theorem Outcome.relabel_ne_panic {ε α : Type} (f : Outcome ε α → Outcome ε α) (hok : ∀ a, f (.ok a) ≠ panic)
    (hfail : ∀ e, f (.fail e) ≠ panic) {r : Outcome ε α} (h : r ≠ panic) : f r ≠ panic := by
  cases r with
  | ok a => exact hok a
  | fail e => exact hfail e
  | panic => exact absurd rfl h

theorem Outcome.mapM_ne_panic {ε α β : Type} {f : α → Outcome ε β} (hf : ∀ a, f a ≠ panic) (l : List α) :
    l.mapM f ≠ panic := by
  induction l with
  | nil => simp
  | cons a l ih =>
    rw [List.mapM_cons]
    exact bind_ne_panic (hf a) fun b _ => bind_ne_panic ih fun bs _ => by simp

namespace Eff
variable {σ τ ε α β : Type} {q : Prop} {P : σ → Prop} {x : Eff σ ε α}

/-- From states with `P` on, the call keeps `P`; it does not panic if `q` holds. -/
def Calm (q : Prop) (P : σ → Prop) (x : Eff σ ε α) : Prop := Ends P x fun r => q → r ≠ .panic

theorem calm_pure (a : α) : Calm q P (pure a : Eff σ ε α) := ends_pure fun _ h => by cases h

theorem calm_get : Calm q P (get : Eff σ ε σ) := fun _ hs => ⟨hs, fun _ h => by cases h⟩

theorem calm_modify {f : σ → σ} (h : ∀ s, P s → P (f s)) : Calm q P (modify f : Eff σ ε Unit) :=
  fun s hs => ⟨h s hs, fun _ h => by cases h⟩

theorem calm_fail (e : ε) : Calm q P (fail e : Eff σ ε α) := fun _ hs => ⟨hs, fun _ h => by cases h⟩

theorem calm_lift {r : Outcome ε α} (h : r ≠ .panic) : Calm q P (liftM r : Eff σ ε α) := ends_lift fun _ => h

/-- What a call leaves behind does not depend on a step that only computes. -/
theorem keeps_lift (r : Outcome ε α) : Calm False P (liftM r : Eff σ ε α) := ends_lift fun h => h.elim

theorem Calm.bind {f : α → Eff σ ε β} (hx : Calm q P x) (hf : ∀ a, Calm q P (f a)) : Calm q P (x >>= f) :=
  Ends.bind hx (fun a _ => hf a) (fun _ _ _ h => by cases h) fun h hq => absurd rfl (h hq)

theorem Calm.ite {c : Prop} [Decidable c] {y : Eff σ ε α} (hx : c → Calm q P x) (hy : ¬c → Calm q P y) :
    Calm q P (if c then x else y) := by
  split
  · rename_i h
    exact hx h
  · rename_i h
    exact hy h

theorem Calm.attempt (hx : Calm q P x) : Calm q P (attempt x) := by
  intro s hs
  have h := hx s hs
  unfold Eff.attempt
  rcases hrun : x s with ⟨a | e | _, s'⟩ <;> rw [hrun] at h
  · exact ⟨h.1, by simp⟩
  · exact ⟨h.1, by simp⟩
  · exact ⟨h.1, fun hq => absurd rfl (h.2 hq)⟩

/-- A call whose error the caller handles. -/
theorem Calm.handle {f : Except ε α → Eff σ ε β} (hx : Calm q P x) (herr : ∀ e, Calm q P (f (.error e)))
    (hok : ∀ a, Calm q P (f (.ok a))) : Calm q P (Eff.attempt x >>= f) := by
  refine hx.attempt.bind fun r => ?_
  cases r with
  | error e => exact herr e
  | ok a => exact hok a

theorem Calm.deferred {d : Eff σ ε Unit} (hd : Calm q P d) (hx : Calm q P x) : Calm q P (deferred d x) := by
  intro s hs
  have hxs := hx s hs
  have hds := hd (x s).2 hxs.1
  unfold Eff.deferred
  dsimp only
  rcases hrun : d (x s).2 with ⟨_ | _ | _, s₂⟩ <;> rw [hrun] at hds
  · exact ⟨hds.1, hxs.2⟩
  · exact ⟨hds.1, hxs.2⟩
  · exact ⟨hds.1, fun hq => absurd rfl (hds.2 hq)⟩

theorem Calm.onSnd (hx : Calm q P x) : Calm q (fun st => P st.2) (onSnd x : Eff (τ × σ) ε α) :=
  fun st hst => hx st.2 hst

/-- The invariant and the bounds, proved apart from each other. -/
theorem Calm.of_preserves (hx : Calm False P x) (h : q → ∀ s, (x s).1 ≠ .panic) : Calm q P x :=
  fun s hs => ⟨(hx s hs).1, fun hq => h hq s⟩

end Eff
end Go
