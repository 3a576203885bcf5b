import S7Comm.Lib.Series

/-! Byte orders. The fields of a file are written in an order that the file itself says; a field in little-endian order
    is the big-endian one read backwards, so that facts about one order serve for both. -/

namespace Go

inductive ByteOrder where
  | little
  | big
  deriving Repr, DecidableEq

namespace ByteOrder
variable (bo : ByteOrder)

/-- The bytes of a field in this order, from those with the most significant one first; and back. -/
def arrange (b : Bytes) : Bytes :=
  match bo with
  | little => b.reverse
  | big => b

def putUint16 (v : UInt16) : Bytes := bo.arrange (Go.putUint16 v)

def putUint32 (v : UInt32) : Bytes := bo.arrange (Go.putUint32 v)

section Read
variable {ε : Type}

/-- The field at `b[i:i+2]`. -/
def uint16At (b : Bytes) (i : Nat) : Outcome ε UInt16 := do uint16 (bo.arrange (← slice b i (i + 2)))

/-- The field at `b[i:i+4]`. -/
def uint32At (b : Bytes) (i : Nat) : Outcome ε UInt32 := do uint32 (bo.arrange (← slice b i (i + 4)))

end Read

variable {bo} {b : Bytes} {off : Nat}

@[simp] theorem arrange_arrange : bo.arrange (bo.arrange b) = b := by
  cases bo <;> simp [arrange]

@[simp] theorem length_arrange : (bo.arrange b).length = b.length := by
  cases bo <;> simp [arrange]

@[simp] theorem length_putUint16 (v : UInt16) : (bo.putUint16 v).length = 2 := by
  rw [putUint16, length_arrange, Go.length_putUint16]

@[simp] theorem length_putUint32 (v : UInt32) : (bo.putUint32 v).length = 4 := by
  rw [putUint32, length_arrange]
  rfl

variable {ε : Type}

theorem uint16At_eq_ok_iff {v : UInt16} :
    (bo.uint16At b off : Outcome ε UInt16) = .ok v ↔ StandsAt b off (bo.putUint16 v) := by
  unfold uint16At
  rw [Outcome.bind_eq_ok]
  constructor
  · rintro ⟨s, hs, hv⟩
    obtain ⟨hat, hlen⟩ := slice_eq_ok_iff.mp hs
    match hb : bo.arrange s, (length_arrange (b := s)).trans (Nat.add_left_cancel hlen).symm with
    | [x, y], _ =>
      rw [hb] at hv
      cases hv
      rwa [putUint16, putUint16_be16, ← hb, arrange_arrange]
  · intro h
    refine ⟨bo.putUint16 v, slice_eq_ok_iff.mpr ⟨h, by rw [length_putUint16]⟩, ?_⟩
    rw [putUint16, arrange_arrange]
    exact congrArg Outcome.ok (be16_putUint16 v)

theorem uint32At_eq_ok_iff {v : UInt32} :
    (bo.uint32At b off : Outcome ε UInt32) = .ok v ↔ StandsAt b off (bo.putUint32 v) := by
  unfold uint32At
  rw [Outcome.bind_eq_ok]
  constructor
  · rintro ⟨s, hs, hv⟩
    obtain ⟨hat, hlen⟩ := slice_eq_ok_iff.mp hs
    match hb : bo.arrange s, (length_arrange (b := s)).trans (Nat.add_left_cancel hlen).symm with
    | [x, y, z, w], _ =>
      rw [hb] at hv
      cases hv
      rwa [putUint32, putUint32_be32, ← hb, arrange_arrange]
  · intro h
    refine ⟨bo.putUint32 v, slice_eq_ok_iff.mpr ⟨h, by rw [length_putUint32]⟩, ?_⟩
    rw [putUint32, arrange_arrange]
    exact congrArg Outcome.ok (be32_putUint32 v)

/-- A field that lies in the bytes can be read. -/
theorem exists_uint16At (bo : ByteOrder) (h : off + 2 ≤ b.length) : ∃ v, (bo.uint16At b off : Outcome ε UInt16) = .ok v := by
  rw [uint16At, slice_of_le (by omega) h, Nat.add_sub_cancel_left, Outcome.ok_bind]
  have hlen : (bo.arrange ((b.drop off).take 2)).length = 2 := by
    rw [length_arrange, List.length_take, List.length_drop]
    omega
  match bo.arrange ((b.drop off).take 2), hlen with
  | [x, y], _ => exact ⟨be16 x y, rfl⟩

theorem exists_uint32At (bo : ByteOrder) (h : off + 4 ≤ b.length) : ∃ v, (bo.uint32At b off : Outcome ε UInt32) = .ok v := by
  rw [uint32At, slice_of_le (by omega) h, Nat.add_sub_cancel_left, Outcome.ok_bind]
  have hlen : (bo.arrange ((b.drop off).take 4)).length = 4 := by
    rw [length_arrange, List.length_take, List.length_drop]
    omega
  match bo.arrange ((b.drop off).take 4), hlen with
  | [x, y, z, w], _ => exact ⟨be32 x y z w, rfl⟩

end ByteOrder
end Go
