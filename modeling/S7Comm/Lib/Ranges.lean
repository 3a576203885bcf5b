import Mathlib.Data.List.Sort
import Mathlib.Tactic

/-! Half-open ranges of a linear order. Ranges that may overlap are swept in the order of their starts into ranges with
    a gap between neighbours; such ranges are determined by the places they cover. -/

namespace Go

section Ranges
variable {α : Type} [LinearOrder α] {rs rs' : List (α × α)} {lo hi x : α}

/-- Some range holds `x`. -/
def Covers (rs : List (α × α)) (x : α) : Prop := ∃ r ∈ rs, r.1 ≤ x ∧ x < r.2

instance (rs : List (α × α)) (x : α) : Decidable (Covers rs x) :=
  inferInstanceAs (Decidable (∃ r ∈ rs, r.1 ≤ x ∧ x < r.2))

/-- The ranges are not empty, increase, and leave a gap between neighbours. -/
def Separated : List (α × α) → Prop
  | [] => True
  | r :: rs => r.1 < r.2 ∧ (∀ r' ∈ rs, r.2 < r'.1) ∧ Separated rs

@[simp] theorem covers_nil : ¬Covers ([] : List (α × α)) x := by
  rintro ⟨r, hr, -⟩
  cases hr

@[simp] theorem covers_cons {r : α × α} : Covers (r :: rs) x ↔ (r.1 ≤ x ∧ x < r.2) ∨ Covers rs x := by
  simp [Covers]

/-- All ranges start at or after `lo`, so nothing before it is covered. -/
theorem not_covers_of_lt (h : ∀ r ∈ rs, lo ≤ r.1) (hx : x < lo) : ¬Covers rs x := by
  rintro ⟨r, hr, hle, -⟩
  exact absurd (lt_of_lt_of_le hx (h r hr)) (not_lt.mpr hle)

theorem Separated.nonempty (h : Separated rs) : ∀ r ∈ rs, r.1 < r.2 := by
  induction rs with
  | nil => exact nofun
  | cons r rs ih =>
    obtain ⟨hr, -, hrs⟩ := h
    exact List.forall_mem_cons.mpr ⟨hr, ih hrs⟩

/-- The end of the first range is not covered. -/
theorem Separated.not_covers_end {r : α × α} (h : Separated (r :: rs)) : ¬Covers (r :: rs) r.2 := by
  obtain ⟨-, hgap, -⟩ := h
  rw [covers_cons, not_or]
  refine ⟨fun hin => lt_irrefl _ hin.2, ?_⟩
  rintro ⟨r', hr', hle, -⟩
  exact absurd (hgap r' hr') (not_lt.mpr hle)

/-- The first range starts at the first place that is covered. -/
theorem Separated.start_le {r : α × α} (h : Separated (r :: rs)) (hx : Covers (r :: rs) x) : r.1 ≤ x := by
  obtain ⟨hr, hgap, -⟩ := h
  rcases covers_cons.mp hx with ⟨hle, -⟩ | ⟨r', hr', hle, -⟩
  · exact hle
  · exact (hr.trans ((hgap r' hr').trans_le hle)).le

/-- Separated ranges are determined by what they cover. -/
theorem Separated.ext (h : Separated rs) (h' : Separated rs') (hsame : ∀ x, Covers rs x ↔ Covers rs' x) : rs = rs' := by
  induction rs generalizing rs' with
  | nil =>
    cases rs' with
    | nil => rfl
    | cons r' rs' =>
      exact absurd ((hsame r'.1).mpr (covers_cons.mpr (.inl ⟨le_refl _, h'.1⟩))) covers_nil
  | cons r rs ih =>
    cases rs' with
    | nil => exact absurd ((hsame r.1).mp (covers_cons.mpr (.inl ⟨le_refl _, h.1⟩))) covers_nil
    | cons r' rs' =>
      have hr : Covers (r :: rs) r.1 := covers_cons.mpr (.inl ⟨le_refl _, h.1⟩)
      have hr' : Covers (r' :: rs') r'.1 := covers_cons.mpr (.inl ⟨le_refl _, h'.1⟩)
      have hstart : r.1 = r'.1 := le_antisymm (h.start_le ((hsame _).mpr hr')) (h'.start_le ((hsame _).mp hr))
      -- An end that lies inside the other range would be covered there.
      have hend : r.2 = r'.2 := by
        rcases lt_trichotomy r.2 r'.2 with hlt | heq | hgt
        · exact absurd ((hsame r.2).mpr (covers_cons.mpr (.inl ⟨hstart ▸ h.1.le, hlt⟩))) h.not_covers_end
        · exact heq
        · exact absurd ((hsame r'.2).mp (covers_cons.mpr (.inl ⟨hstart ▸ h'.1.le, hgt⟩))) h'.not_covers_end
      have hrr : r = r' := Prod.ext hstart hend
      subst hrr
      congr 1
      refine ih h.2.2 h'.2.2 fun x => ?_
      have hx := hsame x
      rw [covers_cons, covers_cons] at hx
      constructor
      · rintro ⟨s, hs, hle, hlt⟩
        have hout : ¬(r.1 ≤ x ∧ x < r.2) := fun hin => absurd ((h.2.1 s hs).trans_le hle) (not_lt.mpr hin.2.le)
        exact (hx.mp (.inr ⟨s, hs, hle, hlt⟩)).resolve_left hout
      · rintro ⟨s, hs, hle, hlt⟩
        have hout : ¬(r.1 ≤ x ∧ x < r.2) := fun hin => absurd ((h'.2.1 s hs).trans_le hle) (not_lt.mpr hin.2.le)
        exact (hx.mpr (.inr ⟨s, hs, hle, hlt⟩)).resolve_left hout

/-- Of two ranges one lies before the other. -/
theorem Separated.apart (h : Separated rs) {r s : α × α} (hr : r ∈ rs) (hs : s ∈ rs) :
    s = r ∨ s.2 < r.1 ∨ r.2 < s.1 := by
  induction rs with
  | nil => cases hr
  | cons t rs ih =>
    obtain ⟨-, hgap, hrs⟩ := h
    rcases List.mem_cons.mp hr with rfl | hr'
    · rcases List.mem_cons.mp hs with rfl | hs'
      · exact .inl rfl
      · exact .inr (.inr (hgap s hs'))
    · rcases List.mem_cons.mp hs with rfl | hs'
      · exact .inr (.inl (hgap r hr'))
      · exact ih hrs hr' hs'

/-- A covered place lies in exactly one of the ranges. -/
theorem Separated.existsUnique (h : Separated rs) (hx : Covers rs x) :
    ∃! i : Nat, ∃ r, rs[i]? = some r ∧ r.1 ≤ x ∧ x < r.2 := by
  induction rs with
  | nil => exact absurd hx covers_nil
  | cons r rs ih =>
    obtain ⟨-, hgap, hrs⟩ := h
    rcases covers_cons.mp hx with hin | hrest
    · refine ⟨0, ⟨r, rfl, hin⟩, ?_⟩
      rintro (_ | i) ⟨s, hs, hle, -⟩
      · rfl
      · exact absurd ((hgap s (List.mem_of_getElem? hs)).trans_le hle) (not_lt.mpr hin.2.le)
    · obtain ⟨i, ⟨s, hs, hin⟩, hunique⟩ := ih hrs hrest
      refine ⟨i + 1, ⟨s, hs, hin⟩, ?_⟩
      rintro (_ | j) ⟨t, ht, hle, hlt⟩
      · cases ht
        exact absurd ((hgap s (List.mem_of_getElem? hs)).trans_le hin.1) (not_lt.mpr hlt.le)
      · exact congrArg Nat.succ (hunique j ⟨t, ht, hle, hlt⟩)

/-! ### Sweeping -/

/-- The ranges in order of their starts, joined where they touch; `(lo, hi)` is the range that is still growing. What
    lies before `lo` is cut off. -/
def sweep (lo hi : α) : List (α × α) → List (α × α)
  | [] => [(lo, hi)]
  | (a, b) :: rs =>
    if b ≤ hi then sweep lo hi rs
    else if hi < a then (lo, hi) :: sweep a b rs
    else sweep lo b rs

/-- The sweep grows its first range and separates all ranges after it. -/
theorem sweep_spec (lo hi : α) (hrs : ∀ r ∈ rs, r.1 < r.2) :
    ∃ hi' rs', sweep lo hi rs = (lo, hi') :: rs' ∧ hi ≤ hi' ∧ (∀ r ∈ rs', hi' < r.1) ∧ Separated rs' := by
  induction rs generalizing lo hi with
  | nil => exact ⟨hi, [], rfl, le_refl _, nofun, trivial⟩
  | cons r rs ih =>
    obtain ⟨a, b⟩ := r
    obtain ⟨hab, hrs⟩ := List.forall_mem_cons.mp hrs
    unfold sweep
    split_ifs with hold hgap
    · exact ih lo hi hrs
    · obtain ⟨b', rs', heq, hle, hafter, hsep⟩ := ih a b hrs
      have hlt : a < b' := hab.trans_le hle
      refine ⟨hi, _, rfl, le_refl _, ?_, ?_⟩
      · rw [heq]
        exact List.forall_mem_cons.mpr ⟨hgap, fun r hr => hgap.trans (hlt.trans (hafter r hr))⟩
      · rw [heq]
        exact ⟨hlt, hafter, hsep⟩
    · obtain ⟨hi', rs', heq, hle, hafter, hsep⟩ := ih lo b hrs
      exact ⟨hi', rs', heq, (not_le.mp hold).le.trans hle, hafter, hsep⟩

/-- No range of the sweep starts before the first one. -/
theorem le_of_mem_sweep (hlo : lo ≤ hi) (hrs : ∀ r ∈ rs, r.1 < r.2) : ∀ r ∈ sweep lo hi rs, lo ≤ r.1 := by
  obtain ⟨hi', rs', heq, hle, hafter, -⟩ := sweep_spec lo hi hrs
  rw [heq]
  exact List.forall_mem_cons.mpr ⟨le_refl _, fun r hr => ((hlo.trans hle).trans_lt (hafter r hr)).le⟩

/-- From `lo` on, the sweep covers what the ranges cover. -/
theorem covers_sweep (hlo : lo ≤ hi) (hrs : ∀ r ∈ rs, r.1 < r.2) (hsorted : rs.Pairwise fun r s => r.1 ≤ s.1)
    (hx : lo ≤ x) : Covers (sweep lo hi rs) x ↔ x < hi ∨ Covers rs x := by
  induction rs generalizing lo hi with
  | nil => simp [sweep, hx]
  | cons r rs ih =>
    obtain ⟨a, b⟩ := r
    obtain ⟨hab, hrs⟩ := List.forall_mem_cons.mp hrs
    obtain ⟨hfirst, hsorted⟩ := List.pairwise_cons.mp hsorted
    unfold sweep
    rw [covers_cons]
    split_ifs with hold hgap
    · rw [ih hlo hrs hsorted hx]
      refine ⟨fun h => h.imp_right .inr, ?_⟩
      rintro (h | ⟨-, h⟩ | h)
      · exact .inl h
      · exact .inl (h.trans_le hold)
      · exact .inr h
    · rw [covers_cons, and_iff_right hx]
      rcases lt_or_ge x a with hlt | hge
      · -- Before the new range nothing but the finished one can cover.
        have h₁ := not_covers_of_lt (le_of_mem_sweep hab.le hrs) hlt
        have h₂ := not_covers_of_lt hfirst hlt
        simp [h₁, h₂, not_le.mpr hlt]
      · rw [ih hab.le hrs hsorted hge, and_iff_right hge]
    · have hhi := not_le.mp hold
      rw [ih (hlo.trans hhi.le) hrs hsorted hx]
      constructor
      · rintro (h | h)
        · rcases lt_or_ge x a with hlt | hge
          · exact .inl (hlt.trans_le (not_lt.mp hgap))
          · exact .inr (.inl ⟨hge, h⟩)
        · exact .inr (.inr h)
      · rintro (h | ⟨-, h⟩ | h)
        · exact .inl (h.trans hhi)
        · exact .inl h
        · exact .inr h

/-- A sweep from `lo` on: separated ranges that cover what is covered from `lo` on, after an empty range if `lo` itself
    is not covered. -/
theorem exists_sweep (lo : α) (hrs : ∀ r ∈ rs, r.1 < r.2) (hsorted : rs.Pairwise fun r s => r.1 ≤ s.1) :
    ∃ rs', Separated rs' ∧ (∀ x, Covers rs' x ↔ lo ≤ x ∧ Covers rs x) ∧
      (Covers rs lo ∧ sweep lo lo rs = rs' ∨ ¬Covers rs lo ∧ sweep lo lo rs = (lo, lo) :: rs') := by
  obtain ⟨hi, rs', heq, hle, hafter, hsep⟩ := sweep_spec lo lo hrs
  have hcovers : ∀ x, lo ≤ x → (Covers (sweep lo lo rs) x ↔ Covers rs x) := by
    intro x hx
    rw [covers_sweep (le_refl _) hrs hsorted hx, or_iff_right (not_lt.mpr hx)]
  have hbefore : ∀ x, ¬lo ≤ x → ¬Covers (sweep lo lo rs) x := fun x hx =>
    not_covers_of_lt (le_of_mem_sweep (le_refl _) hrs) (not_le.mp hx)
  have hsame : ∀ x, Covers (sweep lo lo rs) x ↔ lo ≤ x ∧ Covers rs x := by
    intro x
    by_cases hx : lo ≤ x
    · rw [hcovers x hx, and_iff_right hx]
    · exact iff_of_false (hbefore x hx) fun h => hx h.1
  rcases hle.lt_or_eq with hlt | hempty
  · refine ⟨sweep lo lo rs, ?_, hsame, .inl ⟨?_, rfl⟩⟩
    · rw [heq]
      exact ⟨hlt, hafter, hsep⟩
    · rw [← hcovers lo (le_refl _), heq]
      exact covers_cons.mpr (.inl ⟨le_refl _, hlt⟩)
  · subst hempty
    have hrest : ∀ x, Covers (sweep lo lo rs) x ↔ Covers rs' x := by
      intro x
      rw [heq, covers_cons]
      exact or_iff_right fun h => absurd h.2 (not_lt.mpr h.1)
    refine ⟨rs', hsep, fun x => (hrest x).symm.trans (hsame x), .inr ⟨?_, heq⟩⟩
    rw [← hcovers lo (le_refl _), hrest]
    rintro ⟨r, hr, hle, -⟩
    exact absurd (hafter r hr) (not_lt.mpr hle)

end Ranges

/-! ### Ranges of numbers -/

section Places
variable {rs : List (Nat × Nat)} {x : Nat}

/-- The numbers in the ranges, one range after the other. -/
def places (rs : List (Nat × Nat)) : List Nat := rs.flatMap fun r => List.range' r.1 (r.2 - r.1)

theorem mem_places : x ∈ places rs ↔ Covers rs x := by
  simp only [places, List.mem_flatMap, List.mem_range'_1, Covers]
  refine exists_congr fun r => and_congr_right fun _ => ?_
  omega

theorem length_places : (places rs).length = (rs.map fun r => r.2 - r.1).sum := by
  simp [places, List.length_flatMap]

theorem Separated.nodup_places (h : Separated rs) : (places rs).Nodup := by
  induction rs with
  | nil => exact List.nodup_nil
  | cons r rs ih =>
    obtain ⟨-, hgap, hrs⟩ := h
    refine List.nodup_append.mpr ⟨List.nodup_range' .., ih hrs, ?_⟩
    intro x hx y hy
    obtain ⟨s, hs, hle, -⟩ := mem_places.mp hy
    have := hgap s hs
    rw [List.mem_range'_1] at hx
    omega

end Places

end Go
