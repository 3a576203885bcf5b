import Mathlib.Tactic

/-! A sequence fetched in pieces that lie side by side. Each piece knows where it belongs and how long it should be;
    its content may be shorter. The contents put end to end are at their positions exactly when no short piece is
    followed by more. -/

namespace Go
variable {α : Type}

structure Piece (α : Type) where
  offset : Nat
  size : Nat
  content : List α
  deriving Repr, DecidableEq

/-- The pieces lie side by side from `offset` on, and none is longer than it should be. -/
def Tiled : (offset : Nat) → List (Piece α) → Prop
  | _, [] => True
  | offset, x :: xs => x.offset = offset ∧ x.content.length ≤ x.size ∧ Tiled (offset + x.size) xs

/-- The contents end to end. -/
def joined (xs : List (Piece α)) : List α := xs.flatMap Piece.content

/-- Every element of `data`, which starts at position `start`, is the one that a piece has at its position. -/
def Aligned (start : Nat) (xs : List (Piece α)) (data : List α) : Prop :=
  ∀ (i : Nat) a, data[i]? = some a → ∃ x ∈ xs, x.offset ≤ start + i ∧ x.content[start + i - x.offset]? = some a

/-- A piece is shorter than it should be, and a later one has content. -/
def Gap : List (Piece α) → Prop
  | [] => False
  | x :: xs => x.content.length < x.size ∧ (∃ y ∈ xs, y.content ≠ []) ∨ Gap xs

@[simp] theorem joined_nil : joined ([] : List (Piece α)) = [] := rfl

@[simp] theorem joined_cons (x : Piece α) (xs : List (Piece α)) : joined (x :: xs) = x.content ++ joined xs := by
  simp [joined]

theorem joined_eq_nil {xs : List (Piece α)} : joined xs = [] ↔ ∀ y ∈ xs, y.content = [] := by
  simp [joined]

theorem Tiled.le_offset {offset : Nat} {xs : List (Piece α)} (h : Tiled offset xs) : ∀ x ∈ xs, offset ≤ x.offset := by
  induction xs generalizing offset with
  | nil => simp
  | cons x xs ih =>
    obtain ⟨rfl, -, hrest⟩ := h
    intro y hy
    rcases List.mem_cons.mp hy with rfl | hy
    · exact Nat.le_refl _
    · exact Nat.le_trans (Nat.le_add_right _ _) (ih hrest y hy)

theorem not_gap_of_joined_eq_nil {xs : List (Piece α)} (h : joined xs = []) : ¬Gap xs := by
  induction xs with
  | nil => exact id
  | cons x xs ih =>
    have hall := joined_eq_nil.mp h
    rw [List.forall_mem_cons] at hall
    rintro (⟨-, y, hy, hne⟩ | hgap)
    · exact hne (hall.2 y hy)
    · exact ih (joined_eq_nil.mpr hall.2) hgap

section Step
variable {start : Nat} {x : Piece α} {xs : List (Piece α)}

/-- After a full piece the rest is aligned from the next position on. -/
theorem aligned_cons_of_full (h : Tiled start (x :: xs)) (hfull : x.content.length = x.size) :
    Aligned start (x :: xs) (joined (x :: xs)) ↔ Aligned (start + x.size) xs (joined xs) := by
  obtain ⟨hoff, -, htiled⟩ := h
  rw [joined_cons]
  constructor
  · intro hal i a ha
    obtain ⟨y, hy, hle, hget⟩ := hal (x.size + i) a (by
      rw [List.getElem?_append_right (by omega), hfull, Nat.add_sub_cancel_left]
      exact ha)
    rw [← Nat.add_assoc] at hle hget
    rcases List.mem_cons.mp hy with rfl | hy
    · rw [List.getElem?_eq_none (by omega)] at hget
      cases hget
    · exact ⟨y, hy, hle, hget⟩
  · intro hal i a ha
    by_cases hi : i < x.content.length
    · rw [List.getElem?_append_left hi] at ha
      exact ⟨x, List.mem_cons_self, by omega, by rw [hoff, Nat.add_sub_cancel_left]; exact ha⟩
    · rw [List.getElem?_append_right (by omega), hfull] at ha
      obtain ⟨y, hy, hle, hget⟩ := hal _ a ha
      rw [Nat.add_assoc, Nat.add_sub_cancel' (by omega)] at hle hget
      exact ⟨y, List.mem_cons_of_mem _ hy, hle, hget⟩

/-- After a short piece nothing may follow: its first missing position belongs to no other piece. -/
theorem aligned_cons_of_short (h : Tiled start (x :: xs)) (hshort : x.content.length < x.size) :
    Aligned start (x :: xs) (joined (x :: xs)) ↔ joined xs = [] := by
  obtain ⟨hoff, -, htiled⟩ := h
  rw [joined_cons]
  constructor
  · intro hal
    by_contra hne
    obtain ⟨a, rest, hcons⟩ := List.exists_cons_of_ne_nil hne
    obtain ⟨y, hy, hle, hget⟩ := hal x.content.length a (by
      rw [List.getElem?_append_right (Nat.le_refl _), hcons, Nat.sub_self]
      rfl)
    rcases List.mem_cons.mp hy with rfl | hy
    · rw [List.getElem?_eq_none (by omega)] at hget
      cases hget
    · have := htiled.le_offset y hy
      omega
  · intro hnil i a ha
    rw [hnil, List.append_nil] at ha
    exact ⟨x, List.mem_cons_self, by omega, by rw [hoff, Nat.add_sub_cancel_left]; exact ha⟩

end Step

/-- The contents end to end are at their positions exactly when there is no gap. -/
theorem aligned_joined_iff {start : Nat} {xs : List (Piece α)} (h : Tiled start xs) :
    Aligned start xs (joined xs) ↔ ¬Gap xs := by
  induction xs generalizing start with
  | nil => simp [Aligned, Gap]
  | cons x xs ih =>
    have ⟨_, hle, htiled⟩ := h
    rcases Nat.lt_or_eq_of_le hle with hshort | hfull
    · rw [aligned_cons_of_short h hshort]
      constructor
      · rintro hnil (⟨-, y, hy, hne⟩ | hgap)
        · exact hne (joined_eq_nil.mp hnil y hy)
        · exact not_gap_of_joined_eq_nil hnil hgap
      · intro hgap
        refine joined_eq_nil.mpr fun y hy => ?_
        by_contra hne
        exact hgap (.inl ⟨hshort, y, hy, hne⟩)
    · rw [aligned_cons_of_full h hfull, ih htiled]
      refine not_congr ⟨.inr, ?_⟩
      rintro (⟨hlt, -⟩ | hgap)
      · omega
      · exact hgap

end Go
