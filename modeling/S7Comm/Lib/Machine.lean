import Mathlib.Tactic

/-! Machines that take one action at a time. An action that is not possible in a state gives `none`; a run is a list
    of actions, in the order in which the threads of a program take them. -/

namespace Go

section Run
variable {σ α : Type} (step : σ → α → Option σ)

/-- The state after the actions, if each of them is possible. -/
def run : σ → List α → Option σ
  | s, [] => some s
  | s, a :: as => (step s a).bind fun s' => run s' as

variable {step}

@[simp] theorem run_nil (s : σ) : run step s [] = some s := rfl

theorem run_cons {s s' : σ} {a : α} {as : List α} :
    run step s (a :: as) = some s' ↔ ∃ s₁, step s a = some s₁ ∧ run step s₁ as = some s' := by
  rw [run, Option.bind_eq_some_iff]

theorem run_append {s s' : σ} {as bs : List α} :
    run step s (as ++ bs) = some s' ↔ ∃ s₁, run step s as = some s₁ ∧ run step s₁ bs = some s' := by
  induction as generalizing s with
  | nil => simp
  | cons a as ih =>
    rw [List.cons_append, run_cons]
    constructor
    · rintro ⟨s₁, hfirst, hrest⟩
      obtain ⟨s₂, has, hbs⟩ := ih.mp hrest
      exact ⟨s₂, run_cons.mpr ⟨s₁, hfirst, has⟩, hbs⟩
    · rintro ⟨s₂, has, hbs⟩
      obtain ⟨s₁, hfirst, hrest⟩ := run_cons.mp has
      exact ⟨s₁, hfirst, ih.mpr ⟨s₂, hrest, hbs⟩⟩

/-- What every action keeps, every run keeps. -/
theorem run_invariant {P : σ → Prop} (hstep : ∀ s a s', P s → step s a = some s' → P s') {s s' : σ} {as : List α}
    (hs : P s) (h : run step s as = some s') : P s' := by
  induction as generalizing s with
  | nil =>
    cases h
    exact hs
  | cons a as ih =>
    obtain ⟨s₁, hfirst, hrest⟩ := run_cons.mp h
    exact ih (hstep s a s₁ hs hfirst) hrest

/-- A measure that every action lowers bounds the length of a run. -/
theorem run_length_le {P : σ → Prop} {μ : σ → Nat} (hstep : ∀ s a s', P s → step s a = some s' → P s' ∧ μ s' < μ s)
    {s s' : σ} {as : List α} (hs : P s) (h : run step s as = some s') : as.length + μ s' ≤ μ s := by
  induction as generalizing s with
  | nil =>
    cases h
    exact (Nat.zero_add _).le
  | cons a as ih =>
    obtain ⟨s₁, hfirst, hrest⟩ := run_cons.mp h
    obtain ⟨hs₁, hlt⟩ := hstep s a s₁ hs hfirst
    have hle := ih hs₁ hrest
    rw [List.length_cons]
    omega

/-- Every action of the run meets the condition in the state in which it is taken. -/
def AllSteps (step : σ → α → Option σ) (C : σ → α → Prop) : σ → List α → Prop
  | _, [] => True
  | s, a :: as => C s a ∧ ∀ s', step s a = some s' → AllSteps step C s' as

/-- The condition holds at every action, in the state to which the actions before it lead. -/
theorem allSteps_iff {C : σ → α → Prop} {s : σ} {as : List α} :
    AllSteps step C s as ↔ ∀ as₁ a as₂ s₁, as = as₁ ++ a :: as₂ → run step s as₁ = some s₁ → C s₁ a := by
  induction as generalizing s with
  | nil => simp [AllSteps]
  | cons b as ih =>
    constructor
    · rintro ⟨hb, hrest⟩ as₁ a as₂ s₁ hsplit hrun
      rcases List.cons_eq_append_iff.mp hsplit with ⟨rfl, hcons⟩ | ⟨as₁', rfl, rfl⟩
      · cases hcons
        cases hrun
        exact hb
      · obtain ⟨s', hfirst, hrun⟩ := run_cons.mp hrun
        exact ih.mp (hrest s' hfirst) as₁' a as₂ s₁ rfl hrun
    · intro hall
      refine ⟨hall [] b as s rfl (run_nil s), fun s' hfirst => ih.mpr fun as₁ a as₂ s₁ hsplit hrun => ?_⟩
      exact hall (b :: as₁) a as₂ s₁ (congrArg (b :: ·) hsplit) (run_cons.mpr ⟨s', hfirst, hrun⟩)

/-- A run is checked action by action. -/
def AllSteps.decide {C : σ → α → Prop} [∀ s a, Decidable (C s a)] : ∀ s as, Decidable (AllSteps step C s as)
  | _, [] => .isTrue trivial
  | s, a :: as =>
    match hs : step s a with
    | none => decidable_of_iff (C s a) (by simp [AllSteps, hs])
    | some s₁ =>
      have := AllSteps.decide (C := C) s₁ as
      decidable_of_iff (C s a ∧ AllSteps step C s₁ as) (by simp [AllSteps, hs])

instance {C : σ → α → Prop} [∀ s a, Decidable (C s a)] (s : σ) (as : List α) : Decidable (AllSteps step C s as) :=
  AllSteps.decide s as

/-- What every action that meets the condition keeps, every run of such actions keeps. -/
theorem run_invariant_of {P : σ → Prop} {C : σ → α → Prop}
    (hstep : ∀ s a s', P s → C s a → step s a = some s' → P s') {s s' : σ} {as : List α} (hs : P s)
    (hall : AllSteps step C s as) (h : run step s as = some s') : P s' := by
  induction as generalizing s with
  | nil =>
    cases h
    exact hs
  | cons a as ih =>
    obtain ⟨s₁, hfirst, hrest⟩ := run_cons.mp h
    exact ih (hstep s a s₁ hs hall.1 hfirst) (hall.2 s₁ hfirst) hrest

end Run

/-! ### Counting entries of a list of threads -/

/-- Replacing an entry changes a count by what it says of the two entries. -/
theorem countP_set_add {α : Type} {p : α → Bool} {l : List α} {i : Nat} {a : α} (h : l[i]? = some a) (b : α) :
    (l.set i b).countP p + (p a).toNat = l.countP p + (p b).toNat := by
  obtain ⟨hi, rfl⟩ := List.getElem?_eq_some_iff.mp h
  have hpos : p l[i] = true → 0 < l.countP p := fun hp => List.countP_pos_iff.mpr ⟨_, List.getElem_mem hi, hp⟩
  rw [List.countP_set hi]
  cases hp : p l[i] with
  | false => cases p b <;> simp
  | true =>
    have := hpos hp
    cases p b <;> simp <;> omega

theorem countP_set_ite {α : Type} {p : α → Bool} {l : List α} {i : Nat} {a : α} (h : l[i]? = some a) (b : α) :
    (l.set i b).countP p + (if p a then 1 else 0) = l.countP p + if p b then 1 else 0 := by
  have hset := countP_set_add (p := p) h b
  cases ha : p a <;> cases hb : p b <;> simpa [ha, hb] using hset

/-- The same for a sum. -/
theorem sum_map_set {α : Type} (f : α → Nat) {l : List α} {i : Nat} {a : α} (h : l[i]? = some a) (b : α) :
    ((l.set i b).map f).sum + f a = (l.map f).sum + f b := by
  induction l generalizing i with
  | nil => cases h
  | cons x l ih =>
    cases i with
    | zero =>
      cases h
      simp only [List.set_cons_zero, List.map_cons, List.sum_cons]
      omega
    | succ i =>
      have hrest := ih h
      simp only [List.set_cons_succ, List.map_cons, List.sum_cons]
      omega

end Go
