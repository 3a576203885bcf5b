import S7Comm.Lib.Bytes

/-! Records in a byte string. `StandsAt b off e` says that `e` stands in `b` at `off`; every read of a parser that
    succeeds is such a fact, and facts about neighbouring reads join to one about the whole record. A series is a
    list of records, each in one of its encodings, and an encoding may depend on whether the record is the last. -/

namespace Go

section StandsAt
variable {β : Type} {b : List β} {off : Nat} {e e₁ e₂ : List β}

/-- `e` stands in `b` at `off`. -/
def StandsAt (b : List β) (off : Nat) (e : List β) : Prop := ∃ before after, b = before ++ (e ++ after) ∧ before.length = off

theorem StandsAt.le (h : StandsAt b off e) : off + e.length ≤ b.length := by
  obtain ⟨before, after, rfl, rfl⟩ := h
  simp

theorem StandsAt.drop (h : StandsAt b off e) : (b.drop off).take e.length = e := by
  obtain ⟨before, after, rfl, rfl⟩ := h
  simp

theorem length_take_drop {n : Nat} (h : off + n ≤ b.length) : ((b.drop off).take n).length = n := by
  rw [List.length_take, List.length_drop]
  omega

theorem standsAt_take_drop {n : Nat} (h : off + n ≤ b.length) : StandsAt b off ((b.drop off).take n) := by
  refine ⟨b.take off, (b.drop off).drop n, ?_, ?_⟩
  · rw [List.take_append_drop, List.take_append_drop]
  · rw [List.length_take]
    omega

theorem standsAt_drop (h : off ≤ b.length) : StandsAt b off (b.drop off) :=
  ⟨b.take off, [], by simp, by simp [h]⟩

/-- The bytes at an offset are determined by their number. -/
theorem StandsAt.unique (h₁ : StandsAt b off e₁) (h₂ : StandsAt b off e₂) (hlen : e₁.length = e₂.length) : e₁ = e₂ := by
  rw [← h₁.drop, ← h₂.drop, hlen]

theorem standsAt_nil (h : off ≤ b.length) : StandsAt b off [] := by
  simpa using standsAt_take_drop (b := b) (n := 0) h

theorem standsAt_append : StandsAt b off (e₁ ++ e₂) ↔ StandsAt b off e₁ ∧ StandsAt b (off + e₁.length) e₂ := by
  constructor
  · rintro ⟨before, after, rfl, rfl⟩
    exact ⟨⟨before, e₂ ++ after, by simp, rfl⟩, ⟨before ++ e₁, after, by simp, by simp⟩⟩
  · rintro ⟨h₁, h₂⟩
    obtain ⟨before, after, rfl, rfl⟩ := h₁
    obtain ⟨before₂, after₂, hb, hlen⟩ := h₂
    rw [← List.append_assoc] at hb
    obtain ⟨rfl, rfl⟩ := List.append_inj hb (by simp [hlen])
    exact ⟨before, after₂, by simp, rfl⟩

theorem standsAt_cons {x : β} : StandsAt b off (x :: e) ↔ StandsAt b off [x] ∧ StandsAt b (off + 1) e := by
  rw [← List.singleton_append, standsAt_append]
  rfl

theorem standsAt_zero : StandsAt b 0 e ↔ ∃ after, b = e ++ after := by
  constructor
  · rintro ⟨before, after, rfl, hlen⟩
    obtain rfl := List.eq_nil_of_length_eq_zero hlen
    exact ⟨after, rfl⟩
  · rintro ⟨after, rfl⟩
    exact ⟨[], after, rfl, rfl⟩

/-- What stands at the end of `before ++ b` is the end of `b`. -/
theorem standsAt_append_end (before : List β) :
    StandsAt (before ++ b) before.length e ∧ before.length + e.length = (before ++ b).length ↔ b = e := by
  constructor
  · rintro ⟨h, hlen⟩
    have hd := h.drop
    rw [List.drop_left, List.take_of_length_le (by simp at hlen; omega)] at hd
    exact hd
  · rintro rfl
    exact ⟨⟨before, [], by simp, rfl⟩, by simp⟩

/-- What stands in a part of `b` stands in `b`. -/
theorem StandsAt.trans {r : List β} {i : Nat} (hr : StandsAt b off r) (h : StandsAt r i e) : StandsAt b (off + i) e := by
  obtain ⟨before, after, rfl, rfl⟩ := h
  rw [standsAt_append] at hr
  exact (standsAt_append.mp hr.2).1

theorem StandsAt.within {r : List β} {i : Nat} (hr : StandsAt b off r) (h : StandsAt b (off + i) e)
    (hle : i + e.length ≤ r.length) : StandsAt r i e := by
  have hat : StandsAt r i ((r.drop i).take e.length) := standsAt_take_drop hle
  rwa [(hr.trans hat).unique h (by rw [List.length_take, List.length_drop]; omega)] at hat

variable {ε : Type}

theorem index_eq_ok_iff {x : β} : (index b off : Outcome ε β) = .ok x ↔ StandsAt b off [x] := by
  rw [index_eq_ok]
  constructor
  · intro h
    obtain ⟨hlt, rfl⟩ := List.getElem?_eq_some_iff.mp h
    exact ⟨b.take off, b.drop (off + 1), by simp, by simp; omega⟩
  · rintro ⟨before, after, rfl, rfl⟩
    simp

theorem slice_eq_ok_iff {hi : Nat} {s : List β} :
    (slice b off hi : Outcome ε (List β)) = .ok s ↔ StandsAt b off s ∧ hi = off + s.length := by
  rw [slice_eq_ok]
  constructor
  · rintro ⟨h₁, h₂, rfl⟩
    refine ⟨standsAt_take_drop (by omega), ?_⟩
    rw [List.length_take, List.length_drop]
    omega
  · rintro ⟨h, rfl⟩
    exact ⟨by omega, h.le, by rw [Nat.add_sub_cancel_left, h.drop]⟩

end StandsAt

theorem uint16At_eq_ok_iff {ε : Type} {b : Bytes} {off : Nat} {v : UInt16} :
    (uint16At b off : Outcome ε UInt16) = .ok v ↔ StandsAt b off (putUint16 v) := by
  unfold uint16At
  rw [Outcome.bind_eq_ok]
  constructor
  · rintro ⟨s, hs, hv⟩
    obtain ⟨hat, hlen⟩ := slice_eq_ok_iff.mp hs
    match s, hlen with
    | [hi, lo], _ =>
      cases hv
      rwa [putUint16_be16]
  · intro h
    exact ⟨putUint16 v, slice_eq_ok_iff.mpr ⟨h, rfl⟩, congrArg Outcome.ok (be16_putUint16 v)⟩

/-! ### Series -/

section Series
variable {α β : Type} {Enc : (last : Bool) → α → List β → Prop}

theorem isEmpty_eq_of_length_eq {as : List α} {bs : List β} (h : as.length = bs.length) : as.isEmpty = bs.isEmpty := by
  rw [Bool.eq_iff_iff, List.isEmpty_iff_length_eq_zero, List.isEmpty_iff_length_eq_zero, h]

/-- `e` is the records `as` one after the other. -/
def Series (Enc : (last : Bool) → α → List β → Prop) : List α → List β → Prop
  | [], e => e = []
  | a :: as, e => ∃ e₁ e₂, Enc as.isEmpty a e₁ ∧ Series Enc as e₂ ∧ e = e₁ ++ e₂

/-- One encoding at most stands at an offset, and of one record only. -/
def Unambiguous (Enc : (last : Bool) → α → List β → Prop) : Prop :=
  ∀ ⦃last a a' e e' b off⦄, Enc last a e → Enc last a' e' → StandsAt b off e → StandsAt b off e' → a = a' ∧ e = e'

/-- A series of a known number of records is determined by the bytes at its offset. -/
theorem Series.unique (henc : Unambiguous Enc) {b : List β} {as as' : List α} {e e' : List β} {off : Nat}
    (hlen : as.length = as'.length) (hs : Series Enc as e) (hs' : Series Enc as' e') (hat : StandsAt b off e)
    (hat' : StandsAt b off e') : as = as' ∧ e = e' := by
  induction as generalizing as' e e' off with
  | nil =>
    obtain rfl := List.eq_nil_of_length_eq_zero hlen.symm
    exact ⟨rfl, hs.trans hs'.symm⟩
  | cons a as ih =>
    obtain ⟨a', as', rfl⟩ := List.exists_cons_of_length_eq_add_one hlen.symm
    obtain ⟨e₁, e₂, henc₁, hs₂, rfl⟩ := hs
    obtain ⟨e₁', e₂', henc₁', hs₂', rfl⟩ := hs'
    rw [standsAt_append] at hat hat'
    have hlen' : as.length = as'.length := Nat.succ.inj hlen
    rw [← isEmpty_eq_of_length_eq hlen'] at henc₁'
    obtain ⟨rfl, rfl⟩ := henc henc₁ henc₁' hat.1 hat'.1
    obtain ⟨rfl, rfl⟩ := ih hlen' hs₂ hs₂' hat.2 hat'.2
    exact ⟨rfl, rfl⟩

end Series
end Go
