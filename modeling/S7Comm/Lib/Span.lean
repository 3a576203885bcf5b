import Mathlib.Tactic

/-! Overwriting a span of a list in place: the list keeps its length, the span holds the new elements and
    everything else is as it was. -/

namespace Go
variable {α : Type}

/-- `dst` after `copy(dst, src)`, which copies as many elements as both have. -/
def copyTo (dst src : List α) : List α := src.take dst.length ++ dst.drop src.length

/-- `l` after `copy(l[start:], d)`. -/
def overwrite (l : List α) (start : Nat) (d : List α) : List α := l.take start ++ copyTo (l.drop start) d

@[simp] theorem length_overwrite (l : List α) (start : Nat) (d : List α) :
    (overwrite l start d).length = l.length := by
  simp [overwrite, copyTo]
  omega

@[simp] theorem overwrite_nil (l : List α) (start : Nat) : overwrite l start [] = l := by
  simp [overwrite, copyTo]

/-- A span that fits is replaced whole. -/
theorem overwrite_eq {l d : List α} {start : Nat} (h : start + d.length ≤ l.length) :
    overwrite l start d = l.take start ++ d ++ l.drop (start + d.length) := by
  have hd : d.take (l.length - start) = d := List.take_of_length_le (by omega)
  simp [overwrite, copyTo, hd]

theorem getElem?_overwrite {l d : List α} {start : Nat} (h : start + d.length ≤ l.length) (i : Nat) :
    (overwrite l start d)[i]? = if start ≤ i ∧ i < start + d.length then d[i - start]? else l[i]? := by
  have hlen : (l.take start).length = start := by simp; omega
  rw [overwrite_eq h]
  by_cases h₁ : i < start
  · rw [List.append_assoc, List.getElem?_append_left (by omega), List.getElem?_take_of_lt h₁]
    simp [Nat.not_le.mpr h₁]
  · by_cases h₂ : i < start + d.length
    · rw [List.getElem?_append_left (by simp; omega), List.getElem?_append_right (by omega), hlen]
      simp [h₂, Nat.not_lt.mp h₁]
    · rw [List.getElem?_append_right (by simp; omega), List.getElem?_drop]
      simp only [List.length_append, hlen, h₂, and_false, ↓reduceIte]
      congr 1
      omega

/-- Overwriting a span and then the span right after it overwrites both with the joined elements. -/
theorem overwrite_overwrite_append {l d₁ d₂ : List α} {start : Nat}
    (h : start + (d₁ ++ d₂).length ≤ l.length) :
    overwrite (overwrite l start d₁) (start + d₁.length) d₂ = overwrite l start (d₁ ++ d₂) := by
  rw [List.length_append] at h
  have hlen : (l.take start).length = start := by simp; omega
  rw [overwrite_eq (l := overwrite l start d₁) (by rw [length_overwrite]; omega),
    overwrite_eq (l := l) (d := d₁) (by omega), overwrite_eq (l := l) (by simp; omega)]
  have htake : (l.take start ++ d₁ ++ l.drop (start + d₁.length)).take (start + d₁.length) = l.take start ++ d₁ :=
    List.take_left' (by simp; omega)
  have hdrop : (l.take start ++ d₁ ++ l.drop (start + d₁.length)).drop (start + d₁.length + d₂.length) =
      l.drop (start + (d₁ ++ d₂).length) := by
    rw [Nat.add_assoc, ← Nat.add_assoc start, ← List.drop_drop, List.drop_left' (by simp; omega), List.drop_drop]
    simp [Nat.add_assoc]
  rw [htake, hdrop, List.append_assoc]
  simp

end Go
