import Mathlib.Tactic

/-! Calls of a Go program. A call gives a value, an error or a run-time panic (`Outcome`); a call that
    changes a state leaves the state behind in all three cases (`Eff`). Index and slice expressions
    panic when they are out of range, so a call that does not panic has kept every bound. -/

namespace Go

/-- What a call ends with. -/
inductive Outcome (ε α : Type) where
  | ok (a : α)
  | fail (e : ε)
  | panic
  deriving Repr, DecidableEq

namespace Outcome
variable {ε α β : Type}

instance : Monad (Outcome ε) where
  pure := ok
  bind
    | ok a, f => f a
    | fail e, _ => fail e
    | panic, _ => panic

@[simp] theorem pure_eq (a : α) : (pure a : Outcome ε α) = ok a := rfl

@[simp] theorem ok_bind (a : α) (f : α → Outcome ε β) : (ok a >>= f) = f a := rfl

@[simp] theorem fail_bind (e : ε) (f : α → Outcome ε β) : (fail e >>= f) = fail e := rfl

@[simp] theorem panic_bind (f : α → Outcome ε β) : ((panic : Outcome ε α) >>= f) = panic := rfl

instance : LawfulMonad (Outcome ε) :=
  LawfulMonad.mk' _ (fun x => by cases x <;> rfl) (fun _ _ => rfl) (fun x _ _ => by cases x <;> rfl)

theorem bind_eq_ok {x : Outcome ε α} {f : α → Outcome ε β} {b : β} :
    (x >>= f) = ok b ↔ ∃ a, x = ok a ∧ f a = ok b := by
  cases x <;> simp

theorem bind_eq_fail {x : Outcome ε α} {f : α → Outcome ε β} {e : ε} :
    (x >>= f) = fail e ↔ x = fail e ∨ ∃ a, x = ok a ∧ f a = fail e := by
  cases x <;> simp

theorem bind_ne_panic {x : Outcome ε α} {f : α → Outcome ε β} (hx : x ≠ panic)
    (hf : ∀ a, x = ok a → f a ≠ panic) : (x >>= f) ≠ panic := by
  cases x with
  | ok a => exact hf a rfl
  | fail e => simp
  | panic => exact absurd rfl hx

/-- A check that has to pass. -/
theorem ite_fail_eq_ok {c : Prop} [Decidable c] {e : ε} {x : Outcome ε α} {a : α} :
    (if c then .fail e else x) = .ok a ↔ ¬c ∧ x = .ok a := by
  by_cases h : c <;> simp [h]

end Outcome

/-! ### Index and slice expressions -/

section Index
variable {ε α : Type}

/-- `b[i]`. -/
def index (b : List α) (i : Nat) : Outcome ε α :=
  match b[i]? with
  | some x => .ok x
  | none => .panic

/-- `b[lo:hi]`. The capacity of the array behind `b` is not modelled: the upper bound is checked
    against the length, which is the stricter check. -/
def slice (b : List α) (lo hi : Nat) : Outcome ε (List α) :=
  if lo ≤ hi ∧ hi ≤ b.length then .ok ((b.drop lo).take (hi - lo)) else .panic

theorem index_of_lt {b : List α} {i : Nat} (h : i < b.length) : (index b i : Outcome ε α) = .ok b[i] := by
  simp [index, h]

theorem index_eq_ok {b : List α} {i : Nat} {x : α} : (index b i : Outcome ε α) = .ok x ↔ b[i]? = some x := by
  unfold index
  cases b[i]? <;> simp

@[simp] theorem index_zero (x : α) (b : List α) : (index (x :: b) 0 : Outcome ε α) = .ok x := rfl

@[simp] theorem index_succ (x : α) (b : List α) (i : Nat) :
    (index (x :: b) (i + 1) : Outcome ε α) = index b i := rfl

theorem slice_of_le {b : List α} {lo hi : Nat} (h₁ : lo ≤ hi) (h₂ : hi ≤ b.length) :
    (slice b lo hi : Outcome ε (List α)) = .ok ((b.drop lo).take (hi - lo)) := by
  simp [slice, h₁, h₂]

theorem slice_eq_ok {b : List α} {lo hi : Nat} {s : List α} :
    (slice b lo hi : Outcome ε (List α)) = .ok s ↔ lo ≤ hi ∧ hi ≤ b.length ∧ (b.drop lo).take (hi - lo) = s := by
  unfold slice
  split_ifs with h
  · simp [h]
  · simp only [false_iff]
    exact fun h' => h ⟨h'.1, h'.2.1⟩

@[simp] theorem slice_zero_length (b : List α) : (slice b 0 b.length : Outcome ε (List α)) = .ok b := by
  simp [slice]

@[simp] theorem slice_succ (x : α) (b : List α) (lo hi : Nat) :
    (slice (x :: b) (lo + 1) (hi + 1) : Outcome ε (List α)) = slice b lo hi := by
  simp [slice]

end Index

/-! ### Calls with a state -/

/-- A call that reads and changes a state `σ`. An error does not undo what was changed before it. -/
def Eff (σ ε α : Type) : Type := σ → Outcome ε α × σ

namespace Eff
variable {σ ε α β : Type}

instance : Monad (Eff σ ε) where
  pure a := fun s => (.ok a, s)
  bind x f := fun s =>
    match x s with
    | (.ok a, s') => f a s'
    | (.fail e, s') => (.fail e, s')
    | (.panic, s') => (.panic, s')

instance : MonadLift (Outcome ε) (Eff σ ε) where
  monadLift x := fun s => (x, s)

/-- The state. -/
def get : Eff σ ε σ := fun s => (.ok s, s)

/-- Change the state. -/
def modify (f : σ → σ) : Eff σ ε Unit := fun s => (.ok (), f s)

/-- Return an error. -/
def fail (e : ε) : Eff σ ε α := fun s => (.fail e, s)

/-- Run a call and hand its error to the caller, who tests it against nil. -/
def attempt (x : Eff σ ε α) : Eff σ ε (Except ε α) := fun s =>
  match x s with
  | (.ok a, s') => (.ok (.ok a), s')
  | (.fail e, s') => (.ok (.error e), s')
  | (.panic, s') => (.panic, s')

/-- Run a deferred call after `x`, whatever `x` ends with. Its error is dropped. -/
def deferred (d : Eff σ ε Unit) (x : Eff σ ε α) : Eff σ ε α := fun s =>
  match x s with
  | (r, s₁) =>
    match d s₁ with
    | (.panic, s₂) => (.panic, s₂)
    | (_, s₂) => (r, s₂)

/-- A call that reads and changes only the second part of the state. -/
def onSnd {τ : Type} (x : Eff σ ε α) : Eff (τ × σ) ε α := fun (t, s) =>
  match x s with
  | (r, s') => (r, (t, s'))

@[simp] theorem pure_apply (a : α) (s : σ) : (pure a : Eff σ ε α) s = (.ok a, s) := rfl

@[simp] theorem get_apply (s : σ) : (get : Eff σ ε σ) s = (.ok s, s) := rfl

@[simp] theorem modify_apply (f : σ → σ) (s : σ) : (modify f : Eff σ ε Unit) s = (.ok (), f s) := rfl

@[simp] theorem fail_apply (e : ε) (s : σ) : (fail e : Eff σ ε α) s = (.fail e, s) := rfl

@[simp] theorem lift_apply (x : Outcome ε α) (s : σ) : (liftM x : Eff σ ε α) s = (x, s) := rfl

theorem bind_apply (x : Eff σ ε α) (f : α → Eff σ ε β) (s : σ) :
    (x >>= f) s =
      match x s with
      | (.ok a, s') => f a s'
      | (.fail e, s') => (.fail e, s')
      | (.panic, s') => (.panic, s') := rfl

theorem bind_ok {x : Eff σ ε α} {f : α → Eff σ ε β} {s s' : σ} {a : α} (h : x s = (.ok a, s')) :
    (x >>= f) s = f a s' := by
  rw [bind_apply, h]

theorem bind_fail {x : Eff σ ε α} {f : α → Eff σ ε β} {s s' : σ} {e : ε} (h : x s = (.fail e, s')) :
    (x >>= f) s = (.fail e, s') := by
  rw [bind_apply, h]

theorem bind_panic {x : Eff σ ε α} {f : α → Eff σ ε β} {s s' : σ} (h : x s = (.panic, s')) :
    (x >>= f) s = (.panic, s') := by
  rw [bind_apply, h]

theorem bind_eq_ok {x : Eff σ ε α} {f : α → Eff σ ε β} {s s' : σ} {b : β} :
    (x >>= f) s = (.ok b, s') ↔ ∃ a s₁, x s = (.ok a, s₁) ∧ f a s₁ = (.ok b, s') := by
  rw [bind_apply]
  rcases hx : x s with ⟨_ | _ | _, s₁⟩ <;> simp

theorem onSnd_apply {τ : Type} {x : Eff σ ε α} {s s' : σ} {r : Outcome ε α} (h : x s = (r, s')) (t : τ) :
    onSnd x (t, s) = (r, (t, s')) := by
  simp only [onSnd, h]

theorem attempt_ok {x : Eff σ ε α} {s s' : σ} {a : α} (h : x s = (.ok a, s')) :
    attempt x s = (.ok (.ok a), s') := by
  rw [attempt, h]

theorem attempt_fail {x : Eff σ ε α} {s s' : σ} {e : ε} (h : x s = (.fail e, s')) :
    attempt x s = (.ok (.error e), s') := by
  rw [attempt, h]

theorem attempt_panic {x : Eff σ ε α} {s s' : σ} (h : x s = (.panic, s')) : attempt x s = (.panic, s') := by
  rw [attempt, h]

theorem attempt_eq_ok {x : Eff σ ε α} {s s' : σ} {r : Except ε α} (h : attempt x s = (.ok r, s')) :
    (∃ a, r = .ok a ∧ x s = (.ok a, s')) ∨ ∃ e, r = .error e ∧ x s = (.fail e, s') := by
  unfold attempt at h
  rcases hx : x s with ⟨a | e | _, s₁⟩ <;> rw [hx] at h <;> cases h
  · exact .inl ⟨a, rfl, rfl⟩
  · exact .inr ⟨e, rfl, rfl⟩

theorem deferred_eq_ok {d : Eff σ ε Unit} {x : Eff σ ε α} {s s' : σ} {a : α} (h : deferred d x s = (.ok a, s')) :
    ∃ s₁, x s = (.ok a, s₁) := by
  unfold deferred at h
  rcases hx : x s with ⟨r, s₁⟩
  rw [hx] at h
  dsimp only at h
  rcases hd : d s₁ with ⟨_ | _ | _, s₂⟩ <;> rw [hd] at h
  · exact ⟨s₁, by rw [(Prod.mk.inj h).1]⟩
  · exact ⟨s₁, by rw [(Prod.mk.inj h).1]⟩
  · cases h

/-! ### Invariants of a call -/

/-- The call keeps `P`, whatever it ends with. -/
def Preserves (P : σ → Prop) (x : Eff σ ε α) : Prop := ∀ s, P s → P (x s).2

section Preserves
variable {P : σ → Prop} {x : Eff σ ε α}

theorem preserves_get : Preserves P (get : Eff σ ε σ) := fun _ h => h

theorem preserves_fail (e : ε) : Preserves P (fail e : Eff σ ε α) := fun _ h => h

theorem preserves_lift (x : Outcome ε α) : Preserves P (liftM x : Eff σ ε α) := fun _ h => h

theorem Preserves.bind {f : α → Eff σ ε β} (hx : Preserves P x) (hf : ∀ a, Preserves P (f a)) :
    Preserves P (x >>= f) := by
  intro s hs
  have hx' := hx s hs
  rw [bind_apply]
  rcases h : x s with ⟨a | e | _, s₁⟩
  · rw [h] at hx'
    exact hf a s₁ hx'
  · rwa [h] at hx'
  · rwa [h] at hx'

end Preserves

/-! ### Calls that panic -/

/-- A sequence panics in its first part, or in its second part after the first one succeeded. -/
theorem bind_eq_panic {x : Eff σ ε α} {f : α → Eff σ ε β} {s : σ} :
    ((x >>= f) s).1 = .panic ↔ (x s).1 = .panic ∨ ∃ a s', x s = (.ok a, s') ∧ (f a s').1 = .panic := by
  rw [bind_apply]
  rcases x s with ⟨a | e | _, s₁⟩ <;> simp

end Eff
end Go
