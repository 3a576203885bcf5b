import Mathlib.Tactic

/-! Things with sizes, laid end to end: where each one starts, and which are complete when only so many places are
    left of them. -/

namespace Go

section Sizes
variable {α : Type} (size : α → Nat)

def total (as : List α) : Nat := (as.map size).sum

/-- Where the thing with number `m` starts. -/
def startAt (as : List α) (m : Nat) : Nat := total size (as.take m)

/-- The things that lie completely in the first `k` places. -/
def whole : List α → Nat → List α
  | [], _ => []
  | a :: as, k => if size a ≤ k then a :: whole as (k - size a) else []

/-- How many of the first `k` places are left after these. -/
def leftover : List α → Nat → Nat
  | [], k => k
  | a :: as, k => if size a ≤ k then leftover as (k - size a) else k

variable {size} {as bs : List α} {a : α} {k m n : Nat}

@[simp] theorem total_nil : total size [] = 0 := rfl

@[simp] theorem total_cons : total size (a :: as) = size a + total size as := by
  simp [total]

@[simp] theorem total_append : total size (as ++ bs) = total size as + total size bs := by
  simp [total]

@[simp] theorem startAt_zero : startAt size as 0 = 0 := rfl

@[simp] theorem startAt_cons_succ : startAt size (a :: as) (m + 1) = size a + startAt size as m := by
  simp [startAt]

theorem startAt_mono (size : α → Nat) (as : List α) (h : m ≤ n) : startAt size as m ≤ startAt size as n := by
  induction as generalizing m n with
  | nil => simp [startAt]
  | cons a as ih =>
    match m, n, h with
    | 0, _, _ => exact Nat.zero_le _
    | m + 1, n + 1, h =>
      rw [startAt_cons_succ, startAt_cons_succ]
      exact Nat.add_le_add_left (ih (Nat.le_of_succ_le_succ h)) _

/-- A list that fits is complete, and the rest of the places goes to what follows it. -/
theorem whole_append_of_le (bs : List α) (h : total size as ≤ k) :
    whole size (as ++ bs) k = as ++ whole size bs (k - total size as) ∧
      leftover size (as ++ bs) k = leftover size bs (k - total size as) := by
  induction as generalizing k with
  | nil => exact ⟨rfl, rfl⟩
  | cons a as ih =>
    rw [total_cons] at h
    obtain ⟨hwhole, hleft⟩ := ih (k := k - size a) (by omega)
    rw [List.cons_append, whole, leftover, if_pos (by omega), if_pos (by omega), hwhole, hleft, total_cons, Nat.sub_sub]
    exact ⟨rfl, rfl⟩

theorem whole_of_le (h : total size as ≤ k) : whole size as k = as := by
  simpa [whole] using (whole_append_of_le [] h).1

/-- What follows a list that does not fit has no place. -/
theorem whole_append_of_lt (bs : List α) (h : k < total size as) :
    whole size (as ++ bs) k = whole size as k ∧ leftover size (as ++ bs) k = leftover size as k := by
  induction as generalizing k with
  | nil => exact absurd h (Nat.not_lt_zero k)
  | cons a as ih =>
    rw [total_cons] at h
    rw [List.cons_append, whole, leftover, whole, leftover]
    by_cases ha : size a ≤ k
    · obtain ⟨hwhole, hleft⟩ := ih (k := k - size a) (by omega)
      rw [if_pos ha, if_pos ha, if_pos ha, if_pos ha, hwhole, hleft]
      exact ⟨rfl, rfl⟩
    · simp only [if_neg ha, and_self]

theorem whole_sublist : (whole size as k).Sublist as := by
  induction as generalizing k with
  | nil => exact .slnil
  | cons a as ih =>
    unfold whole
    split_ifs
    · exact ih.cons_cons a
    · exact List.nil_sublist _

/-- Nothing is left over exactly when the places end where a thing ends. -/
theorem leftover_eq_zero : leftover size as k = 0 ↔ ∃ m, k = startAt size as m := by
  induction as generalizing k with
  | nil => simp [leftover, startAt]
  | cons a as ih =>
    unfold leftover
    split_ifs with ha
    · rw [ih]
      constructor
      · rintro ⟨m, hm⟩
        exact ⟨m + 1, by rw [startAt_cons_succ]; omega⟩
      · rintro ⟨_ | m, hm⟩
        · rw [startAt_zero] at hm
          exact ⟨0, by rw [startAt_zero]; omega⟩
        · rw [startAt_cons_succ] at hm
          exact ⟨m, by omega⟩
    · constructor
      · rintro rfl
        exact ⟨0, rfl⟩
      · rintro ⟨_ | m, hm⟩
        · exact hm
        · rw [startAt_cons_succ] at hm
          omega

/-- Two things that share a place are one. -/
theorem startAt_inj {x : Nat} (hm : startAt size as m ≤ x ∧ x < startAt size as (m + 1))
    (hn : startAt size as n ≤ x ∧ x < startAt size as (n + 1)) : m = n := by
  rcases Nat.lt_trichotomy m n with hlt | heq | hgt
  · have := startAt_mono size as (m := m + 1) hlt
    omega
  · exact heq
  · have := startAt_mono size as (m := n + 1) hgt
    omega

/-- Things of which each stands at one of `as`, at most one at each and only where there is room, are no more than the
    room that `as` has. -/
theorem length_le_total {β : Type} (At : α → β → Prop) {bs : List β} (hbs : bs.Nodup)
    (hat : ∀ b ∈ bs, ∃ a ∈ as, At a b) (hone : ∀ a ∈ as, ∀ b ∈ bs, ∀ b' ∈ bs, At a b → At a b' → b = b')
    (hroom : ∀ a ∈ as, ∀ b ∈ bs, At a b → 1 ≤ size a) : bs.length ≤ total size as := by
  classical
  induction as generalizing bs with
  | nil =>
    cases bs with
    | nil => exact Nat.le_refl _
    | cons b bs =>
      obtain ⟨a, ha, -⟩ := hat b (List.mem_cons_self ..)
      cases ha
  | cons a as ih =>
    -- At `a` stands at most one; all others stand at the rest.
    have hhere : (bs.filter fun b => At a b).length ≤ size a := by
      rcases hf : bs.filter (fun b => At a b) with _ | ⟨b, _ | ⟨b', rest⟩⟩
      · exact Nat.zero_le _
      · have hb : b ∈ bs.filter fun b => At a b := by rw [hf]; exact List.mem_cons_self ..
        rw [List.mem_filter, decide_eq_true_iff] at hb
        exact hroom a (List.mem_cons_self ..) b hb.1 hb.2
      · have hb : b ∈ bs.filter fun b => At a b := by rw [hf]; exact List.mem_cons_self ..
        have hb' : b' ∈ bs.filter fun b => At a b := by rw [hf]; exact List.mem_cons_of_mem _ (List.mem_cons_self ..)
        rw [List.mem_filter, decide_eq_true_iff] at hb hb'
        have hnodup := hbs.filter fun b => At a b
        rw [hf, hone a (List.mem_cons_self ..) b hb.1 b' hb'.1 hb.2 hb'.2] at hnodup
        simp at hnodup
    have hrest : (bs.filter fun b => !At a b).length ≤ total size as := by
      have hmem : ∀ b ∈ bs.filter fun b => !At a b, b ∈ bs ∧ ¬At a b := by
        intro b hb
        simpa using hb
      refine ih (hbs.filter _) (fun b hb => ?_) ?_ ?_
      · obtain ⟨a', ha', hab⟩ := hat b (hmem b hb).1
        rcases List.mem_cons.mp ha' with rfl | ha'
        · exact absurd hab (hmem b hb).2
        · exact ⟨a', ha', hab⟩
      · exact fun a' ha' b hb b' hb' =>
          hone a' (List.mem_cons_of_mem _ ha') b (hmem b hb).1 b' (hmem b' hb').1
      · exact fun a' ha' b hb => hroom a' (List.mem_cons_of_mem _ ha') b (hmem b hb).1
    have hsplit := List.length_eq_length_filter_add (l := bs) (fun b => decide (At a b))
    rw [total_cons]
    omega

end Sizes

end Go
