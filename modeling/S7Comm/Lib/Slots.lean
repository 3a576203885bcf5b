import Mathlib.Tactic

/-! Slices whose entries threads fill in. Beside the entries stand the indexes that were written, so that one can say
    how often an entry was written and what it holds. -/

namespace Go

structure Slots (α : Type) where
  vals : List α
  /-- The indexes that were written, the last one first. -/
  writes : List Nat := []
  deriving Repr, DecidableEq

namespace Slots
variable {α : Type}

/-- A new slice of zero values. -/
def make (zero : α) (n : Nat) : Slots α := { vals := List.replicate n zero }

/-- The assignment `s[i] = a`; `none` is the panic of an index out of range. -/
def write (s : Slots α) (i : Nat) (a : α) : Option (Slots α) :=
  if i < s.vals.length then some ⟨s.vals.set i a, i :: s.writes⟩ else none

/-- An entry is zero until it is written, and then a value that `P` allows at its index. -/
def Filled (zero : α) (P : Nat → α → Prop) (s : Slots α) : Prop :=
  ∀ i a, s.vals[i]? = some a → (i ∉ s.writes ∧ a = zero) ∨ (i ∈ s.writes ∧ P i a)

variable {zero a : α} {P Q : Nat → α → Prop} {s s' : Slots α} {i : Nat}

theorem write_eq_some : s.write i a = some s' ↔ i < s.vals.length ∧ s' = ⟨s.vals.set i a, i :: s.writes⟩ := by
  unfold write
  split
  · rename_i h
    simp [h, eq_comm]
  · rename_i h
    simp [h]

theorem write_of_lt (a : α) (h : i < s.vals.length) : s.write i a = some ⟨s.vals.set i a, i :: s.writes⟩ := if_pos h

theorem filled_make (zero : α) (P : Nat → α → Prop) (n : Nat) : Filled zero P (make zero n) := by
  intro i a h
  exact .inl ⟨List.not_mem_nil, (List.mem_replicate.mp (List.mem_of_getElem? h)).2⟩

theorem Filled.mono (h : Filled zero P s) (hPQ : ∀ i a, P i a → Q i a) : Filled zero Q s := by
  intro i a hi
  exact (h i a hi).imp_right (And.imp_right (hPQ i a))

/-- A write of an allowed value keeps the slots filled. -/
theorem Filled.write (h : Filled zero P s) (ha : P i a) : Filled zero P ⟨s.vals.set i a, i :: s.writes⟩ := by
  intro j b hj
  rw [List.getElem?_set] at hj
  split at hj
  · rename_i heq
    subst heq
    split at hj
    · cases hj
      exact .inr ⟨List.mem_cons_self .., ha⟩
    · cases hj
  · rename_i hne
    rcases h j b hj with ⟨hfresh, hzero⟩ | ⟨hmem, hP⟩
    · exact .inl ⟨fun hmem => (List.mem_cons.mp hmem).elim (Ne.symm hne) hfresh, hzero⟩
    · exact .inr ⟨List.mem_cons_of_mem _ hmem, hP⟩

end Slots

/-- Entries that are all present are the entries of a list. -/
theorem exists_map_some {α : Type} {l : List (Option α)} (h : ∀ v ∈ l, ∃ a, v = some a) :
    ∃ as : List α, l = as.map some := by
  induction l with
  | nil => exact ⟨[], rfl⟩
  | cons v l ih =>
    obtain ⟨a, rfl⟩ := h v (List.mem_cons_self ..)
    obtain ⟨as, rfl⟩ := ih fun v hv => h v (List.mem_cons_of_mem _ hv)
    exact ⟨a :: as, rfl⟩

end Go
