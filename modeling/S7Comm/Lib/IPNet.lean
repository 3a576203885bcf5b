import S7Comm.Lib.Bytes

/-! Addresses and networks of Go's `net` package. An address is a list of 4 or 16 bytes, nil the empty list. The bytes
    of an address, read from the last one on, are the digits of a number in base 256. -/

namespace Go

/-! ### Digits -/

/-- The number with these bytes, the last one first. -/
def leValue (b : Bytes) : Nat := Nat.ofDigits 256 (b.map UInt8.toNat)

section Digits
variable {a b : Bytes}

@[simp] theorem leValue_nil : leValue [] = 0 := rfl

@[simp] theorem leValue_cons (x : UInt8) (b : Bytes) : leValue (x :: b) = x.toNat + 256 * leValue b := by
  simp [leValue, Nat.ofDigits_cons]

theorem toNat_lt_of_mem {n : Nat} (h : n ∈ b.map UInt8.toNat) : n < 256 := by
  obtain ⟨x, -, rfl⟩ := List.mem_map.mp h
  exact x.toNat_lt

theorem leValue_lt (b : Bytes) : leValue b < 256 ^ b.length := by
  have h := Nat.ofDigits_lt_base_pow_length (by decide) fun n hn => toNat_lt_of_mem (b := b) hn
  rwa [List.length_map] at h

/-- Numbers of equally many bytes are equal only if the bytes are. -/
theorem leValue_inj (hlen : a.length = b.length) (h : leValue a = leValue b) : a = b := by
  have hdigits := Nat.ofDigits_inj_of_len_eq (by decide) (by simpa using hlen)
    (fun n hn => toNat_lt_of_mem (b := a) hn) (fun n hn => toNat_lt_of_mem (b := b) hn) h
  exact List.map_injective_iff.mpr (fun _ _ => UInt8.toNat_inj.mp) hdigits

/-- The digits of a bitwise and. -/
theorem land_digits {x y m n : Nat} (hx : x < 256) (hy : y < 256) :
    (x + 256 * m) &&& (y + 256 * n) = (x &&& y) + 256 * (m &&& n) := by
  have hxy : x &&& y < 2 ^ 8 := Nat.lt_of_le_of_lt Nat.and_le_left hx
  refine Nat.eq_of_testBit_eq fun j => ?_
  rw [Nat.testBit_and, Nat.add_comm x, Nat.add_comm y, Nat.add_comm (x &&& y), show 256 = 2 ^ 8 from rfl,
    Nat.testBit_two_pow_mul_add m hx, Nat.testBit_two_pow_mul_add n hy, Nat.testBit_two_pow_mul_add _ hxy]
  split <;> simp

theorem leValue_and (hlen : a.length = b.length) : leValue (List.zipWith (· &&& ·) a b) = leValue a &&& leValue b := by
  induction a generalizing b with
  | nil => simp
  | cons x a ih =>
    cases b with
    | nil => cases hlen
    | cons y b =>
      rw [List.zipWith_cons_cons, leValue_cons, leValue_cons, leValue_cons, ih (Nat.succ.inj hlen),
        land_digits x.toNat_lt y.toNat_lt, UInt8.toNat_and]

end Digits

/-- Clearing the low `h` of `w` bits. -/
theorem land_high_bits {v h w : Nat} (hw : h ≤ w) (hv : v < 2 ^ w) : v &&& (2 ^ w - 2 ^ h) = v / 2 ^ h * 2 ^ h := by
  have hmask : 2 ^ w - 2 ^ h = (2 ^ (w - h) - 1) * 2 ^ h := by
    rw [Nat.sub_mul, ← Nat.pow_add, Nat.sub_add_cancel hw, Nat.one_mul]
  refine Nat.eq_of_testBit_eq fun j => ?_
  rw [hmask, Nat.testBit_and, Nat.testBit_mul_two_pow, Nat.testBit_mul_two_pow, Nat.testBit_two_pow_sub_one,
    Nat.testBit_div_two_pow]
  by_cases hj : h ≤ j
  · by_cases hjw : j < w
    · simp [hj, show j - h < w - h by omega, Nat.sub_add_cancel hj]
    · have hpow : 2 ^ w ≤ 2 ^ j := Nat.pow_le_pow_right (by decide) (Nat.le_of_not_lt hjw)
      have hzero : v.testBit j = false := Nat.testBit_lt_two_pow (Nat.lt_of_lt_of_le hv hpow)
      simp [hj, hzero, Nat.sub_add_cancel hj]
  · simp [hj]

/-! ### Addresses -/

/-- The first bytes of an IPv4 address in its 16-byte form. -/
def v4InV6Prefix : Bytes := [0, 0, 0, 0, 0, 0, 0, 0, 0, 0, 0xff, 0xff]

/-- `IP.To4`. -/
def to4 (ip : Bytes) : Option Bytes :=
  if ip.length = 4 then some ip
  else if ip.length = 16 ∧ ip.take 12 = v4InV6Prefix then some (ip.drop 12)
  else none

/-- `IP.Mask`. -/
def ipMask (ip mask : Bytes) : Bytes :=
  let mask := if mask.length = 16 ∧ ip.length = 4 ∧ (mask.take 12).all (· == 0xff) then mask.drop 12 else mask
  let ip := if mask.length = 4 ∧ ip.length = 16 ∧ ip.take 12 = v4InV6Prefix then ip.drop 12 else ip
  if ip.length ≠ mask.length then [] else List.zipWith (· &&& ·) ip mask

/-- `IP.String` of an IPv4 address, also of one in its 16-byte form. -/
def ipString (ip : Bytes) : String := ".".intercalate (((to4 ip).getD ip).map fun b => toString b.toNat)

/-! ### Networks -/

structure IPNet where
  ip : Bytes
  mask : Bytes
  deriving Repr, DecidableEq

/-- `CIDRMask` for 32 bits. -/
def cidrMask (ones : Nat) : Bytes := (List.range 4).map fun i => UInt8.ofNat (256 - 2 ^ (8 - min 8 (ones - 8 * i)))

/-- The number of ones at the start of a mask, if only zeros follow them. -/
def simpleMaskLength : Bytes → Option Nat
  | [] => some 0
  | v :: mask =>
    if v = 0xff then (simpleMaskLength mask).map (· + 8)
    else
      let n := ((List.range 8).takeWhile fun i => v.toNat.testBit (7 - i)).length
      if v.toNat * 2 ^ n % 256 = 0 ∧ mask.all (· == 0) then some n else none

/-- `IPMask.Size`. -/
def maskSize (mask : Bytes) : Nat × Nat :=
  match simpleMaskLength mask with
  | none => (0, 0)
  | some ones => (ones, mask.length * 8)

/-- `networkNumberAndMask`. -/
def IPNet.numberAndMask (n : IPNet) : Bytes × Bytes :=
  let ip := (to4 n.ip).getD n.ip
  if ip.length ≠ 4 ∧ ip.length ≠ 16 then ([], [])
  else if n.mask.length = 4 then if ip.length ≠ 4 then ([], []) else (ip, n.mask)
  else if n.mask.length = 16 then (ip, if ip.length = 4 then n.mask.drop 12 else n.mask)
  else ([], [])

/-- `IPNet.Contains`. -/
def IPNet.contains (n : IPNet) (ip : Bytes) : Bool :=
  let (number, mask) := n.numberAndMask
  let ip := (to4 ip).getD ip
  ip.length == number.length && List.zipWith (· &&& ·) number mask == List.zipWith (· &&& ·) ip mask

/-! ### The number of an address -/

/-- The number of an address. -/
def beValue (ip : Bytes) : Nat := leValue ip.reverse

/-- The IPv4 address with this number, modulo 2^32. -/
def ipOf (n : Nat) : Bytes :=
  [UInt8.ofNat (n / 2 ^ 24), UInt8.ofNat (n / 2 ^ 16), UInt8.ofNat (n / 2 ^ 8), UInt8.ofNat n]

section Number
variable {ip mask : Bytes}

theorem beValue_lt (hip : ip.length = 4) : beValue ip < 2 ^ 32 := by
  have h := leValue_lt ip.reverse
  rw [List.length_reverse, hip] at h
  exact h

theorem beValue_inj {ip' : Bytes} (hlen : ip.length = ip'.length) (h : beValue ip = beValue ip') : ip = ip' :=
  List.reverse_inj.mp (leValue_inj (by simpa using hlen) h)

@[simp] theorem length_ipOf (n : Nat) : (ipOf n).length = 4 := rfl

theorem beValue_ipOf (n : Nat) : beValue (ipOf n) = n % 2 ^ 32 := by
  simp only [beValue, ipOf, List.reverse_cons, List.reverse_nil, List.nil_append, List.cons_append, leValue_cons,
    leValue_nil, UInt8.toNat_ofNat']
  omega

theorem ipOf_beValue (hip : ip.length = 4) : ipOf (beValue ip) = ip :=
  beValue_inj (by rw [hip]; rfl) (by rw [beValue_ipOf, Nat.mod_eq_of_lt (beValue_lt hip)])

theorem beValue_and (hlen : ip.length = mask.length) :
    beValue (List.zipWith (· &&& ·) ip mask) = beValue ip &&& beValue mask := by
  rw [beValue, List.reverse_zipWith hlen, leValue_and (by simpa using hlen)]
  rfl

theorem to4_of_length (hip : ip.length = 4) : to4 ip = some ip := if_pos hip

end Number

/-! ### Networks of a prefix -/

section Prefix
variable {ip net : Bytes} {ones : Nat}

@[simp] theorem length_cidrMask (ones : Nat) : (cidrMask ones).length = 4 := by simp [cidrMask]

theorem cidrMask_spec (hones : ones ≤ 32) :
    beValue (cidrMask ones) = 2 ^ 32 - 2 ^ (32 - ones) ∧ maskSize (cidrMask ones) = (ones, 32) := by
  have h : ∀ k : Fin 33, beValue (cidrMask k) = 2 ^ 32 - 2 ^ (32 - k.val) ∧ maskSize (cidrMask k) = (k.val, 32) := by
    decide
  exact h ⟨ones, Nat.lt_succ_of_le hones⟩

theorem ipMask_of_length (hip : ip.length = 4) :
    ipMask ip (cidrMask ones) = List.zipWith (· &&& ·) ip (cidrMask ones) := by
  simp [ipMask, hip]

theorem length_ipMask (hip : ip.length = 4) : (ipMask ip (cidrMask ones)).length = 4 := by
  simp [ipMask_of_length hip, hip]

/-- The mask of a prefix clears the bits after it. -/
theorem beValue_zipWith_cidrMask (hones : ones ≤ 32) (hip : ip.length = 4) :
    beValue (List.zipWith (· &&& ·) ip (cidrMask ones)) = beValue ip / 2 ^ (32 - ones) * 2 ^ (32 - ones) := by
  rw [beValue_and (by simp [hip]), (cidrMask_spec hones).1, land_high_bits (by omega) (beValue_lt hip)]

theorem beValue_ipMask (hones : ones ≤ 32) (hip : ip.length = 4) :
    beValue (ipMask ip (cidrMask ones)) = beValue ip / 2 ^ (32 - ones) * 2 ^ (32 - ones) := by
  rw [ipMask_of_length hip, beValue_zipWith_cidrMask hones hip]

/-- A network has the addresses that agree with it in the bits of its prefix. -/
theorem contains_iff (hones : ones ≤ 32) (hnet : net.length = 4) (hip : ip.length = 4) :
    IPNet.contains ⟨net, cidrMask ones⟩ ip = true ↔ beValue net / 2 ^ (32 - ones) = beValue ip / 2 ^ (32 - ones) := by
  have hnumber : IPNet.numberAndMask ⟨net, cidrMask ones⟩ = (net, cidrMask ones) := by
    simp [IPNet.numberAndMask, to4_of_length hnet, hnet]
  have hvalue : IPNet.contains ⟨net, cidrMask ones⟩ ip = true ↔
      List.zipWith (· &&& ·) net (cidrMask ones) = List.zipWith (· &&& ·) ip (cidrMask ones) := by
    simp [IPNet.contains, hnumber, to4_of_length hip, hnet, hip]
  rw [hvalue]
  constructor
  · intro h
    have hmul := congrArg beValue h
    rw [beValue_zipWith_cidrMask hones hnet, beValue_zipWith_cidrMask hones hip] at hmul
    exact Nat.eq_of_mul_eq_mul_right (Nat.two_pow_pos _) hmul
  · intro h
    refine beValue_inj (by simp [hnet, hip]) ?_
    rw [beValue_zipWith_cidrMask hones hnet, beValue_zipWith_cidrMask hones hip, h]

end Prefix

/-! ### Texts -/

/-- The part of a text before the first separator. -/
theorem append_cons_inj {α : Type} {sep : α} {l l' r r' : List α} (hl : sep ∉ l) (hl' : sep ∉ l')
    (h : l ++ sep :: r = l' ++ sep :: r') : l = l' ∧ r = r' := by
  induction l generalizing l' with
  | nil =>
    cases l' with
    | nil => exact ⟨rfl, (List.cons.inj h).2⟩
    | cons b l' => exact absurd ((List.cons.inj h).1 ▸ List.mem_cons_self ..) hl'
  | cons a l ih =>
    cases l' with
    | nil => exact absurd ((List.cons.inj h).1 ▸ List.mem_cons_self ..) hl
    | cons b l' =>
      obtain ⟨rfl, hrest⟩ := List.cons.inj h
      obtain ⟨rfl, hr⟩ := ih (fun hm => hl (List.mem_cons_of_mem _ hm)) (fun hm => hl' (List.mem_cons_of_mem _ hm)) hrest
      exact ⟨rfl, hr⟩

theorem not_mem_toDigits (n : Nat) : '.' ∉ Nat.toDigits 10 n := by
  intro h
  exact absurd (Nat.isDigit_of_mem_toDigits (by decide) (by decide) h) (by decide)

theorem toList_ipString (a b c d : UInt8) :
    (ipString [a, b, c, d]).toList =
      Nat.toDigits 10 a.toNat ++ '.' :: (Nat.toDigits 10 b.toNat ++ '.' ::
        (Nat.toDigits 10 c.toNat ++ '.' :: Nat.toDigits 10 d.toNat)) := by
  simp [ipString, to4]

/-- Different addresses have different texts. -/
theorem ipString_inj {ip ip' : Bytes} (hip : ip.length = 4) (hip' : ip'.length = 4) (h : ipString ip = ipString ip') :
    ip = ip' := by
  match ip, ip', hip, hip' with
  | [a, b, c, d], [a', b', c', d'], _, _ =>
    have htext := congrArg String.toList h
    rw [toList_ipString, toList_ipString] at htext
    obtain ⟨ha, htext⟩ := append_cons_inj (not_mem_toDigits _) (not_mem_toDigits _) htext
    obtain ⟨hb, htext⟩ := append_cons_inj (not_mem_toDigits _) (not_mem_toDigits _) htext
    obtain ⟨hc, hd⟩ := append_cons_inj (not_mem_toDigits _) (not_mem_toDigits _) htext
    have hbyte {x y : UInt8} (hxy : Nat.toDigits 10 x.toNat = Nat.toDigits 10 y.toNat) : x = y := by
      have hvalue := congrArg (Nat.ofDigitChars 10 · 0) hxy
      simp only [Nat.ofDigitChars_ten_toDigits] at hvalue
      exact UInt8.toNat_inj.mp hvalue
    rw [hbyte ha, hbyte hb, hbyte hc, hbyte hd]

end Go
