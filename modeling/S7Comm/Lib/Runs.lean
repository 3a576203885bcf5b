import Mathlib.Data.List.SplitBy
import Mathlib.Tactic

/-! Runs in a list, and offsets that are 64-bit machine integers. A run is a piece of a list in which neighbours are
    related; `List.splitBy` cuts a list into its longest runs. -/

namespace Go

/-! ### Sums of machine integers -/

section Sums
variable {a b : Int64}

/-- A sum that stays below 2^63 is exact. -/
theorem toInt_add_of_lt (hb : 0 ≤ b.toInt) (h : a.toInt + b.toInt < 2 ^ 63) : (a + b).toInt = a.toInt + b.toInt := by
  have ha := a.le_toInt
  rw [Int64.toInt_add]
  exact Int.bmod_eq_of_le (by omega) (by omega)

/-- A sum from 2^63 on wraps. -/
theorem toInt_add_of_ge (hb : 0 ≤ b.toInt) (h : 2 ^ 63 ≤ a.toInt + b.toInt) :
    (a + b).toInt = a.toInt + b.toInt - 2 ^ 64 := by
  have ha := a.toInt_lt
  have hb' := b.toInt_lt
  rw [Int64.toInt_add, ← Int.sub_bmod_right]
  exact Int.bmod_eq_of_le (by omega) (by omega)

/-- A sum that is larger than its first part has not wrapped. -/
theorem toInt_add_of_gt (hb : 0 ≤ b.toInt) (h : a.toInt < (a + b).toInt) : (a + b).toInt = a.toInt + b.toInt := by
  by_cases hlt : a.toInt + b.toInt < 2 ^ 63
  · exact toInt_add_of_lt hb hlt
  · have hb' := b.toInt_lt
    rw [toInt_add_of_ge hb (by omega)] at h
    omega

end Sums

/-! ### Runs -/

section Runs
variable {α : Type} {r : α → α → Bool}

/-- A run that the next element does not continue is the first one. -/
theorem splitBy_run {run rest : List α} (hne : run ≠ []) (hrun : run.IsChain fun a b => r a b = true)
    (hnext : ∀ a ∈ run.getLast?, ∀ b ∈ rest.head?, r a b = false) :
    (run ++ rest).splitBy r = run :: rest.splitBy r := by
  cases rest with
  | nil => rw [List.append_nil, List.splitBy_of_isChain hne hrun, List.splitBy_nil]
  | cons b rest =>
    rw [List.splitBy_append_cons rest fun a ha => hnext a ha b rfl, List.splitBy_of_isChain hne hrun]
    rfl

end Runs

section Forall
variable {α β : Type} {R : α → β → Prop} {l : List α} {u : List β}

theorem exists_right_of_forall₂ (h : List.Forall₂ R l u) {a : α} (ha : a ∈ l) : ∃ b ∈ u, R a b := by
  induction h with
  | nil => cases ha
  | cons hab _ ih =>
    rcases List.mem_cons.mp ha with rfl | ha
    · exact ⟨_, List.mem_cons_self .., hab⟩
    · obtain ⟨b, hb, hR⟩ := ih ha
      exact ⟨b, List.mem_cons_of_mem _ hb, hR⟩

theorem exists_left_of_forall₂ (h : List.Forall₂ R l u) {b : β} (hb : b ∈ u) : ∃ a ∈ l, R a b :=
  exists_right_of_forall₂ h.flip hb

end Forall

/-! ### Intervals of one size -/

/-- Intervals that follow each other in steps of at most their size leave no gap. -/
theorem covered_of_isChain {step size : Int} (hstep : step ≤ size) {offs : List Int} {first last x : Int}
    (hchain : offs.IsChain fun a b => b = a + step) (hfirst : offs.head? = some first)
    (hlast : offs.getLast? = some last) (hx : first ≤ x) (hx' : x < last + size) :
    ∃ o ∈ offs, o ≤ x ∧ x < o + size := by
  induction offs generalizing first with
  | nil => cases hfirst
  | cons o offs ih =>
    cases hfirst
    by_cases hin : x < o + size
    · exact ⟨o, List.mem_cons_self .., hx, hin⟩
    · cases offs with
      | nil =>
        cases hlast
        exact absurd hx' hin
      | cons o' offs =>
        obtain ⟨rfl, hchain⟩ := List.isChain_cons_cons.mp hchain
        obtain ⟨p, hp, hle, hlt⟩ := ih hchain rfl (by rwa [List.getLast?_cons_cons] at hlast) (by omega)
        exact ⟨p, List.mem_cons_of_mem _ hp, hle, hlt⟩

/-- Between two neighbouring intervals that leave a gap, the first place of the gap is in no interval. -/
theorem uncovered_of_gap {α : Type} (f : α → Int) {size : Int} {a b : α} (hgap : f a + size < f b)
    {before after : List α} (hinc : (before ++ a :: b :: after).Pairwise fun x y => f x < f y) :
    ∀ o ∈ before ++ a :: b :: after, ¬(f o ≤ f a + size ∧ f a + size < f o + size) := by
  obtain ⟨-, hrest, hcross⟩ := List.pairwise_append.mp hinc
  obtain ⟨hb, -⟩ := List.pairwise_cons.mp (List.pairwise_cons.mp hrest).2
  intro o ho
  rcases List.mem_append.mp ho with ho | ho
  · have := hcross o ho a (List.mem_cons_self ..)
    omega
  · rcases List.mem_cons.mp ho with rfl | ho
    · omega
    · rcases List.mem_cons.mp ho with rfl | ho
      · omega
      · have := hb o ho
        omega

end Go
