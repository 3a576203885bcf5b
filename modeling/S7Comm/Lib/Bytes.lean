import S7Comm.Lib.Outcome

/-! Byte strings, the big-endian fields in them and the bits of a byte. A field is written as its bytes and
    read back from a slice of its length; the 24-bit field has no type of its own and is built in a 32-bit
    word. -/

namespace Go

abbrev Bytes : Type := List UInt8

theorem uint8_eq_ofNat {x : UInt8} {n : Nat} (h : n < 256) : x = UInt8.ofNat n ↔ x.toNat = n := by
  rw [← UInt8.toNat_inj, UInt8.toNat_ofNat_of_lt' h]

/-! ### 16-bit fields -/

def be16 (hi lo : UInt8) : UInt16 := hi.toUInt16 <<< 8 ||| lo.toUInt16

/-- The two bytes of `v`, most significant first. -/
def putUint16 (v : UInt16) : Bytes := [(v >>> 8).toUInt8, v.toUInt8]

/-- The value of the first two bytes of `b`; a shorter `b` panics. -/
def uint16 {ε : Type} (b : Bytes) : Outcome ε UInt16 :=
  match b with
  | hi :: lo :: _ => .ok (be16 hi lo)
  | _ => .panic

/-- The field at `b[i:i+2]`. -/
def uint16At {ε : Type} (b : Bytes) (i : Nat) : Outcome ε UInt16 := do uint16 (← slice b i (i + 2))

@[simp] theorem uint16At_zero {ε : Type} (hi lo : UInt8) (b : Bytes) :
    (uint16At (hi :: lo :: b) 0 : Outcome ε UInt16) = .ok (be16 hi lo) := by
  simp [uint16At, slice, uint16]

@[simp] theorem uint16At_succ {ε : Type} (x : UInt8) (b : Bytes) (i : Nat) :
    (uint16At (x :: b) (i + 1) : Outcome ε UInt16) = uint16At b i := by
  rw [uint16At, uint16At, Nat.add_right_comm i 1 2, slice_succ]

theorem uint16At_of_le {ε : Type} {b : Bytes} {i : Nat} (h : i + 2 ≤ b.length) :
    (uint16At b i : Outcome ε UInt16) = .ok (be16 (b.getD i 0) (b.getD (i + 1) 0)) := by
  have hdrop : b.drop i = b.getD i 0 :: b.getD (i + 1) 0 :: b.drop (i + 2) := by
    have h₁ : i + 1 < b.length := h
    have h₀ : i < b.length := Nat.lt_of_succ_lt h₁
    rw [List.drop_eq_getElem_cons h₀, List.drop_eq_getElem_cons h₁]
    simp [h₀, h₁]
  rw [uint16At, slice_of_le (by omega) h, hdrop, Nat.add_sub_cancel_left]
  rfl

@[simp] theorem length_putUint16 (v : UInt16) : (putUint16 v).length = 2 := rfl

/-- A byte below a multiple of 256 is joined to it by `|||` as by addition. -/
theorem mul_256_or {a b : Nat} (h : b < 256) : a * 256 ||| b = a * 256 + b := by
  have := Nat.shiftLeft_add_eq_or_of_lt (i := 8) h a
  rw [Nat.shiftLeft_eq] at this
  exact this.symm

@[simp] theorem be16_toNat (hi lo : UInt8) : (be16 hi lo).toNat = hi.toNat * 256 + lo.toNat := by
  have hhi := hi.toNat_lt
  have hmod : hi.toNat * 256 % 65536 = hi.toNat * 256 := by omega
  simp [be16, Nat.shiftLeft_eq, hmod, mul_256_or lo.toNat_lt]

@[simp] theorem be16_zero : be16 0 0 = 0 := rfl

@[simp] theorem be16_putUint16 (v : UInt16) : be16 (v >>> 8).toUInt8 v.toUInt8 = v := by
  apply UInt16.toNat_inj.mp
  have hv := v.toNat_lt
  simp [Nat.shiftRight_eq_div_pow]
  omega

@[simp] theorem putUint16_be16 (hi lo : UInt8) : putUint16 (be16 hi lo) = [hi, lo] := by
  have hhi := hi.toNat_lt
  have hlo := lo.toNat_lt
  have e₁ : ((be16 hi lo) >>> 8).toUInt8 = hi := by
    apply UInt8.toNat_inj.mp
    simp [Nat.shiftRight_eq_div_pow]
    omega
  have e₂ : (be16 hi lo).toUInt8 = lo := by
    apply UInt8.toNat_inj.mp
    simp
  rw [putUint16, e₁, e₂]

theorem uint16_toNat_ofNat {n : Nat} (h : n < 65536) : (UInt16.ofNat n).toNat = n := by
  simp
  omega

/-! ### 24-bit fields -/

def be24 (a b c : UInt8) : UInt32 := a.toUInt32 <<< 16 ||| b.toUInt32 <<< 8 ||| c.toUInt32

/-- The three low bytes of `v`, most significant first. -/
def putUint24 (v : UInt32) : Bytes :=
  [(v >>> 16 &&& 0xFF).toUInt8, (v >>> 8 &&& 0xFF).toUInt8, (v &&& 0xFF).toUInt8]

theorem and_255 (n : Nat) : n &&& 255 = n % 256 := Nat.and_two_pow_sub_one_eq_mod n 8

theorem be24_toNat (a b c : UInt8) : (be24 a b c).toNat = a.toNat * 65536 + b.toNat * 256 + c.toNat := by
  have ha := a.toNat_lt
  have hb := b.toNat_lt
  have hamod : a.toNat * 65536 % 4294967296 = a.toNat * 65536 := Nat.mod_eq_of_lt (by omega)
  have hbmod : b.toNat * 256 % 4294967296 = b.toNat * 256 := Nat.mod_eq_of_lt (by omega)
  have hab : a.toNat * 65536 ||| b.toNat * 256 = (a.toNat * 256 + b.toNat) * 256 := by
    have := Nat.shiftLeft_add_eq_or_of_lt (i := 16) (b := b.toNat * 256) (by omega) a.toNat
    rw [Nat.shiftLeft_eq] at this
    exact this.symm.trans (by omega)
  have hc := mul_256_or (a := a.toNat * 256 + b.toNat) c.toNat_lt
  simp [be24, Nat.shiftLeft_eq, hamod, hbmod, hab, hc]
  omega

theorem be24_putUint24 {v : UInt32} (h : v.toNat < 2 ^ 24) :
    be24 (v >>> 16 &&& 0xFF).toUInt8 (v >>> 8 &&& 0xFF).toUInt8 (v &&& 0xFF).toUInt8 = v := by
  apply UInt32.toNat_inj.mp
  rw [be24_toNat]
  simp [Nat.shiftRight_eq_div_pow, and_255]
  omega

theorem be24_lt (a b c : UInt8) : (be24 a b c).toNat < 2 ^ 24 := by
  have ha := a.toNat_lt
  have hb := b.toNat_lt
  have hc := c.toNat_lt
  rw [be24_toNat]
  omega

theorem putUint24_be24 (a b c : UInt8) : putUint24 (be24 a b c) = [a, b, c] := by
  have ha := a.toNat_lt
  have hb := b.toNat_lt
  have hc := c.toNat_lt
  have hv := be24_toNat a b c
  have e₁ : (be24 a b c >>> 16 &&& 0xFF).toUInt8 = a := by
    apply UInt8.toNat_inj.mp
    simp [Nat.shiftRight_eq_div_pow, and_255, hv]
    omega
  have e₂ : (be24 a b c >>> 8 &&& 0xFF).toUInt8 = b := by
    apply UInt8.toNat_inj.mp
    simp [Nat.shiftRight_eq_div_pow, and_255, hv]
    omega
  have e₃ : (be24 a b c &&& 0xFF).toUInt8 = c := by
    apply UInt8.toNat_inj.mp
    simp [and_255, hv]
    omega
  rw [putUint24, e₁, e₂, e₃]

/-! ### 32-bit fields -/

def be32 (a b c d : UInt8) : UInt32 := a.toUInt32 <<< 24 ||| b.toUInt32 <<< 16 ||| c.toUInt32 <<< 8 ||| d.toUInt32

/-- The four bytes of `v`, most significant first. -/
def putUint32 (v : UInt32) : Bytes := [(v >>> 24).toUInt8, (v >>> 16).toUInt8, (v >>> 8).toUInt8, v.toUInt8]

/-- Joining by `|||` is addition where the lower part has room. -/
theorem shiftLeft_or {a b : Nat} (i : Nat) (h : b < 2 ^ i) : a * 2 ^ i ||| b = a * 2 ^ i + b := by
  rw [← Nat.shiftLeft_eq, Nat.shiftLeft_add_eq_or_of_lt h]

theorem be32_toNat (a b c d : UInt8) :
    (be32 a b c d).toNat = a.toNat * 2 ^ 24 + b.toNat * 2 ^ 16 + c.toNat * 2 ^ 8 + d.toNat := by
  have ha := a.toNat_lt
  have hb := b.toNat_lt
  have hc := c.toNat_lt
  have hd := d.toNat_lt
  have hamod : a.toNat * 2 ^ 24 % 2 ^ 32 = a.toNat * 2 ^ 24 := Nat.mod_eq_of_lt (by omega)
  have hbmod : b.toNat * 2 ^ 16 % 2 ^ 32 = b.toNat * 2 ^ 16 := Nat.mod_eq_of_lt (by omega)
  have hcmod : c.toNat * 2 ^ 8 % 2 ^ 32 = c.toNat * 2 ^ 8 := Nat.mod_eq_of_lt (by omega)
  have hab : a.toNat * 2 ^ 24 ||| b.toNat * 2 ^ 16 = (a.toNat * 2 ^ 8 + b.toNat) * 2 ^ 16 := by
    rw [shiftLeft_or 24 (by omega)]
    omega
  have habc : (a.toNat * 2 ^ 8 + b.toNat) * 2 ^ 16 ||| c.toNat * 2 ^ 8 =
      (a.toNat * 2 ^ 16 + b.toNat * 2 ^ 8 + c.toNat) * 2 ^ 8 := by
    rw [shiftLeft_or 16 (by omega)]
    omega
  have hval : (be32 a b c d).toNat =
      ((a.toNat * 2 ^ 24 % 2 ^ 32 ||| b.toNat * 2 ^ 16 % 2 ^ 32) ||| c.toNat * 2 ^ 8 % 2 ^ 32) ||| d.toNat := by
    simp [be32, Nat.shiftLeft_eq]
  rw [hval, hamod, hbmod, hcmod, hab, habc, shiftLeft_or 8 hd]
  omega

theorem be32_putUint32 (v : UInt32) :
    be32 (v >>> 24).toUInt8 (v >>> 16).toUInt8 (v >>> 8).toUInt8 v.toUInt8 = v := by
  apply UInt32.toNat_inj.mp
  have hv := v.toNat_lt
  rw [be32_toNat]
  simp [Nat.shiftRight_eq_div_pow]
  omega

theorem putUint32_be32 (a b c d : UInt8) : putUint32 (be32 a b c d) = [a, b, c, d] := by
  have ha := a.toNat_lt
  have hb := b.toNat_lt
  have hc := c.toNat_lt
  have hd := d.toNat_lt
  have hv := be32_toNat a b c d
  have e₁ : (be32 a b c d >>> 24).toUInt8 = a := by
    apply UInt8.toNat_inj.mp
    simp [Nat.shiftRight_eq_div_pow, hv]
    omega
  have e₂ : (be32 a b c d >>> 16).toUInt8 = b := by
    apply UInt8.toNat_inj.mp
    simp [Nat.shiftRight_eq_div_pow, hv]
    omega
  have e₃ : (be32 a b c d >>> 8).toUInt8 = c := by
    apply UInt8.toNat_inj.mp
    simp [Nat.shiftRight_eq_div_pow, hv]
    omega
  have e₄ : (be32 a b c d).toUInt8 = d := by
    apply UInt8.toNat_inj.mp
    simp [hv]
    omega
  rw [putUint32, e₁, e₂, e₃, e₄]

/-- The value of the first four bytes of `b`; a shorter `b` panics. -/
def uint32 {ε : Type} (b : Bytes) : Outcome ε UInt32 :=
  match b with
  | x :: y :: z :: w :: _ => .ok (be32 x y z w)
  | _ => .panic

/-- The field at `b[i:i+4]`. -/
def uint32At {ε : Type} (b : Bytes) (i : Nat) : Outcome ε UInt32 := do uint32 (← slice b i (i + 4))

theorem uint32At_of_le {ε : Type} {b : Bytes} {i : Nat} (h : i + 4 ≤ b.length) :
    ∃ v, (uint32At b i : Outcome ε UInt32) = .ok v := by
  have hlen : ((b.drop i).take 4).length = 4 := by
    rw [List.length_take, List.length_drop]
    omega
  rw [uint32At, slice_of_le (by omega) h, Nat.add_sub_cancel_left]
  match hb : (b.drop i).take 4, hlen with
  | [x, y, z, w], _ => exact ⟨be32 x y z w, rfl⟩

/-! ### Numbers in ASCII -/

/-- The value of decimal digits after those of `n`; any other byte is an error. -/
def decimal (n : Nat) : Bytes → Option Nat
  | [] => some n
  | c :: cs => if 0x30 ≤ c ∧ c ≤ 0x39 then decimal (10 * n + (c.toNat - 0x30)) cs else none

/-- `strconv.Atoi`: a sign, which may be left out, and at least one digit, within 64 bits. -/
def atoi (s : Bytes) : Option Int :=
  let digits := if s.head? = some 0x2D ∨ s.head? = some 0x2B then s.tail else s
  if digits = [] then none
  else
    match decimal 0 digits with
    | none => none
    | some n =>
      if s.head? = some 0x2D then if n ≤ 2 ^ 63 then some (-n) else none
      else if n < 2 ^ 63 then some n else none

/-! ### The bits of a byte -/

/-- `b` with bit `i` set to `v`. -/
def withBit (b : UInt8) (i : Nat) (v : Bool) : UInt8 :=
  UInt8.ofNat (Nat.ofBits fun j : Fin 8 => if j.val = i then v else b.toNat.testBit j)

theorem getLsbD_withBit (b : UInt8) (i : Nat) (v : Bool) {j : Nat} (h : j < 8) :
    (withBit b i v).toBitVec.getLsbD j = if j = i then v else b.toBitVec.getLsbD j := by
  rw [withBit, UInt8.toBitVec_ofNat', BitVec.getLsbD_ofNat, Nat.testBit_ofBits_lt _ _ h, ← BitVec.testBit_toNat]
  simp [h]

theorem testBit_withBit (b : UInt8) {i : Nat} (hi : i < 8) (v : Bool) (j : Nat) :
    (withBit b i v).toNat.testBit j = if j = i then v else b.toNat.testBit j := by
  by_cases hj : j < 8
  · have h := getLsbD_withBit b i v hj
    rwa [← BitVec.testBit_toNat, ← BitVec.testBit_toNat] at h
  · have hout : ∀ c : UInt8, c.toNat.testBit j = false := fun c =>
      Nat.testBit_lt_two_pow (Nat.lt_of_lt_of_le c.toNat_lt (Nat.pow_le_pow_right (by decide) (Nat.not_lt.mp hj)))
    rw [hout, hout, if_neg (by omega)]

theorem getLsbD_mask {i j : Nat} (hi : i < 8) (hj : j < 8) :
    (1 <<< UInt8.ofNat i : UInt8).toBitVec.getLsbD j = decide (j = i) := by
  have h : ∀ i j : Fin 8, (1 <<< UInt8.ofNat i : UInt8).toBitVec.getLsbD j = decide (j.val = i.val) := by decide
  exact h ⟨i, hi⟩ ⟨j, hj⟩

/-- Setting a bit with a mask. -/
theorem or_mask {b : UInt8} {i : Nat} (h : i < 8) : b ||| 1 <<< UInt8.ofNat i = withBit b i true := by
  apply UInt8.toBitVec_inj.mp
  apply BitVec.eq_of_getLsbD_eq
  intro j hj
  rw [getLsbD_withBit _ _ _ hj, UInt8.toBitVec_or, BitVec.getLsbD_or, getLsbD_mask h hj]
  by_cases hij : j = i <;> simp [hij]

/-- Clearing a bit with a mask. -/
theorem and_not_mask {b : UInt8} {i : Nat} (h : i < 8) : b &&& ~~~(1 <<< UInt8.ofNat i) = withBit b i false := by
  apply UInt8.toBitVec_inj.mp
  apply BitVec.eq_of_getLsbD_eq
  intro j hj
  rw [getLsbD_withBit _ _ _ hj, UInt8.toBitVec_and, BitVec.getLsbD_and, UInt8.toBitVec_not, BitVec.getLsbD_not,
    getLsbD_mask h hj]
  by_cases hij : j = i <;> simp [hij, hj]

/-- Reading a bit with a shift. -/
theorem shiftRight_and_one {b : UInt8} {i : Nat} (h : i < 8) :
    b >>> UInt8.ofNat i &&& 1 = if b.toNat.testBit i then 1 else 0 := by
  have h8 : i % 8 = i := Nat.mod_eq_of_lt h
  have e : (b >>> UInt8.ofNat i &&& 1).toNat = b.toNat / 2 ^ i % 2 := by
    simp [h8, Nat.and_one_is_mod, Nat.shiftRight_eq_div_pow]
  apply UInt8.toNat_inj.mp
  rw [e, Nat.testBit_eq_decide_div_mod_eq]
  rcases Nat.mod_two_eq_zero_or_one (b.toNat / 2 ^ i) with h0 | h1
  · simp [h0]
  · simp [h1]

/-- Testing a bit with a mask. -/
theorem and_mask_bne_zero (b : UInt8) {i : Nat} (h : i < 8) :
    (b &&& 1 <<< UInt8.ofNat i != 0) = b.toNat.testBit i := by
  have hbits : ∀ j, j < 8 → (b &&& 1 <<< UInt8.ofNat i).toBitVec.getLsbD j = (b.toNat.testBit j && decide (j = i)) := by
    intro j hj
    rw [UInt8.toBitVec_and, BitVec.getLsbD_and, getLsbD_mask h hj, ← BitVec.testBit_toNat]
    rfl
  cases hb : b.toNat.testBit i with
  | true =>
    rw [bne_iff_ne]
    intro hzero
    have hbit := hbits i h
    rw [hzero, hb] at hbit
    simp at hbit
  | false =>
    rw [bne_eq_false_iff_eq]
    apply UInt8.toBitVec_inj.mp
    apply BitVec.eq_of_getLsbD_eq
    intro j hj
    rw [hbits j hj]
    by_cases hij : j = i
    · simp [hij, hb]
    · simp [hij]

theorem and_one_ne_zero (b : UInt8) : b &&& 1 ≠ 0 ↔ b.toNat % 2 = 1 := by
  rw [Ne, ← UInt8.toNat_inj]
  simp [Nat.and_one_is_mod]

/-- A mask sets or clears bit `i` of `old` as the low bit of `b` says. -/
theorem mask_eq_withBit (old b : UInt8) {i : Nat} (h : i < 8) :
    (if b &&& 1 ≠ 0 then old ||| 1 <<< UInt8.ofNat i else old &&& ~~~(1 <<< UInt8.ofNat i)) =
      withBit old i (b.toNat % 2 == 1) := by
  by_cases hb : b.toNat % 2 = 1
  · rw [if_pos ((and_one_ne_zero b).mpr hb), or_mask h, hb]
    rfl
  · rw [if_neg (hb ∘ (and_one_ne_zero b).mp), and_not_mask h, beq_eq_false_iff_ne.mpr hb]

end Go
