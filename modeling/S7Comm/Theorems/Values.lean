import S7Comm.Client.Bit
import S7Comm.Lib.Codec
import S7Comm.Model.Codec
import S7Comm.Wire.Values

/-! The values of a PLC as bytes. Every type of a fixed width is a codec, the signed ones are the unsigned ones in two's
    complement, and the decoders of items read what the decoders of byte strings read. -/

namespace S7Comm
open Go

/-! ### Signed integers -/

theorem decodeInt_eq (data : Bytes) : decodeInt data = (decodeWord data).toInt16 := by
  unfold decodeInt decodeWord
  split
  · rfl
  · apply Int16.toBitVec_inj.mp
    simp [int16Of, be16]

theorem decodeDInt_eq (data : Bytes) : decodeDInt data = (decodeDWord data).toInt32 := by
  unfold decodeDInt decodeDWord
  split
  · rfl
  · apply Int32.toBitVec_inj.mp
    simp [int32Of, be32]

/-- The bytes of an integer: below its sign it does not matter which way it is shifted. -/
theorem encodeInt_eq (val : Int16) : encodeInt val = encodeWord val.toUInt16 := by
  have hmask : (255#8) = BitVec.allOnes 8 := rfl
  have hhigh : byteOf16 (val >>> 8 &&& 0xFF) = (val.toUInt16 >>> 8).toUInt8 := by
    apply UInt8.toBitVec_inj.mp
    simp [byteOf16]
    rw [hmask, BitVec.and_allOnes, setWidth_sshiftRight _ (by decide)]
  have hlow : byteOf16 (val &&& 0xFF) = val.toUInt16.toUInt8 := by
    apply UInt8.toBitVec_inj.mp
    simp [byteOf16]
    rw [hmask, BitVec.and_allOnes]
  unfold encodeInt encodeWord putUint16
  rw [hhigh, hlow]

theorem encodeDInt_eq (val : Int32) : encodeDInt val = encodeDWord val.toUInt32 := by
  have hmask : (255#8) = BitVec.allOnes 8 := rfl
  have h₃ : byteOf32 (val >>> 24 &&& 0xFF) = (val.toUInt32 >>> 24).toUInt8 := by
    apply UInt8.toBitVec_inj.mp
    simp [byteOf32]
    rw [hmask, BitVec.and_allOnes, setWidth_sshiftRight _ (by decide)]
  have h₂ : byteOf32 (val >>> 16 &&& 0xFF) = (val.toUInt32 >>> 16).toUInt8 := by
    apply UInt8.toBitVec_inj.mp
    simp [byteOf32]
    rw [hmask, BitVec.and_allOnes, setWidth_sshiftRight _ (by decide)]
  have h₁ : byteOf32 (val >>> 8 &&& 0xFF) = (val.toUInt32 >>> 8).toUInt8 := by
    apply UInt8.toBitVec_inj.mp
    simp [byteOf32]
    rw [hmask, BitVec.and_allOnes, setWidth_sshiftRight _ (by decide)]
  have h₀ : byteOf32 (val &&& 0xFF) = val.toUInt32.toUInt8 := by
    apply UInt8.toBitVec_inj.mp
    simp [byteOf32]
    rw [hmask, BitVec.and_allOnes]
  unfold encodeDInt encodeDWord putUint32
  rw [h₃, h₂, h₁, h₀]

/-! ### Codecs -/

@[simp] theorem decodeDWord_cons (x y z w : UInt8) (rest : Bytes) :
    decodeDWord (x :: y :: z :: w :: rest) = be32 x y z w :=
  if_neg (by simp only [List.length_cons]; omega)

@[simp] theorem decodeDInt_cons (x y z w : UInt8) (rest : Bytes) :
    decodeDInt (x :: y :: z :: w :: rest) = int32Of x <<< 24 ||| int32Of y <<< 16 ||| int32Of z <<< 8 ||| int32Of w :=
  if_neg (by simp only [List.length_cons]; omega)

def byteCodec : FixedCodec UInt8 where
  width := 1
  encode := encodeByte
  decode := decodeByte
  length_encode _ := rfl
  decode_append b rest h := by
    obtain ⟨x, rfl⟩ := List.length_eq_one_iff.mp h
    rfl
  decode_encode _ := rfl
  encode_decode b h := by
    obtain ⟨x, rfl⟩ := List.length_eq_one_iff.mp h
    rfl

def wordCodec : FixedCodec UInt16 where
  width := 2
  encode := encodeWord
  decode := decodeWord
  length_encode _ := rfl
  decode_append b rest h := by
    obtain ⟨x, y, rfl⟩ := List.length_eq_two.mp h
    rfl
  decode_encode v := be16_putUint16 v
  encode_decode b h := by
    obtain ⟨x, y, rfl⟩ := List.length_eq_two.mp h
    exact putUint16_be16 x y

theorem exists_of_length_four {b : Bytes} (h : b.length = 4) : ∃ x y z w, b = [x, y, z, w] := by
  obtain ⟨x, rest, rfl⟩ := List.exists_cons_of_length_eq_add_one h
  obtain ⟨y, z, w, rfl⟩ := List.length_eq_three.mp (Nat.succ.inj h)
  exact ⟨x, y, z, w, rfl⟩

def dwordCodec : FixedCodec UInt32 where
  width := 4
  encode := encodeDWord
  decode := decodeDWord
  length_encode _ := rfl
  decode_append b rest h := by
    obtain ⟨x, y, z, w, rfl⟩ := exists_of_length_four h
    rw [List.cons_append, List.cons_append, List.cons_append, List.cons_append, decodeDWord_cons, decodeDWord_cons]
  decode_encode v := be32_putUint32 v
  encode_decode b h := by
    obtain ⟨x, y, z, w, rfl⟩ := exists_of_length_four h
    exact putUint32_be32 x y z w

/-- An integer is its two's complement. -/
def int16Equiv : UInt16 ≃ Int16 := ⟨UInt16.toInt16, Int16.toUInt16, fun _ => rfl, fun _ => rfl⟩

def int32Equiv : UInt32 ≃ Int32 := ⟨UInt32.toInt32, Int32.toUInt32, fun _ => rfl, fun _ => rfl⟩

/-! ### Types -/

/-- The types of a fixed width of more than a bit. -/
inductive ValueType where
  | byte | word | int | dword | dint | real
  deriving Repr, DecidableEq

namespace ValueType
variable {F : Type} (ieee : UInt32 ≃ F)

/-- The Go type of the values; `F` stands for float32. -/
def Carrier (F : Type) : ValueType → Type
  | byte => UInt8
  | word => UInt16
  | int => Int16
  | dword => UInt32
  | dint => Int32
  | real => F

def encode : (t : ValueType) → t.Carrier F → Bytes
  | byte => encodeByte
  | word => encodeWord
  | int => encodeInt
  | dword => encodeDWord
  | dint => encodeDInt
  | real => encodeReal ieee

def decode : (t : ValueType) → Bytes → t.Carrier F
  | byte => decodeByte
  | word => decodeWord
  | int => decodeInt
  | dword => decodeDWord
  | dint => decodeDInt
  | real => decodeReal ieee

def decodeAs : (t : ValueType) → ReadVarItem → Res (t.Carrier F)
  | byte => decodeAsByte
  | word => decodeAsWord
  | int => decodeAsInt
  | dword => decodeAsDWord
  | dint => decodeAsDInt
  | real => decodeAsReal ieee

def codec : (t : ValueType) → FixedCodec (t.Carrier F)
  | byte => byteCodec
  | word => wordCodec
  | int => wordCodec.map int16Equiv
  | dword => dwordCodec
  | dint => dwordCodec.map int32Equiv
  | real => dwordCodec.map ieee

theorem encode_eq (t : ValueType) : t.encode ieee = (t.codec ieee).encode := by
  cases t with
  | int => exact funext encodeInt_eq
  | dint => exact funext encodeDInt_eq
  | _ => rfl

theorem decode_eq (t : ValueType) : t.decode ieee = (t.codec ieee).decode := by
  cases t with
  | int => exact funext decodeInt_eq
  | dint => exact funext decodeDInt_eq
  | _ => rfl

end ValueType

/-! ### Items -/

theorem decodeSuccessItem_ok {item : ReadVarItem} {need : Nat} (hcode : item.returnCode = retCodeSuccess)
    (hlen : need ≤ item.data.length) : decodeSuccessItem item need = .ok item.data := by
  unfold decodeSuccessItem
  rw [if_neg (not_not.mpr hcode), if_neg (Nat.not_lt.mpr hlen)]

theorem decodeSuccessItem_fail {item : ReadVarItem} {need : Nat}
    (h : ¬(item.returnCode = retCodeSuccess ∧ need ≤ item.data.length)) :
    ∃ e, decodeSuccessItem item need = .fail e := by
  unfold decodeSuccessItem
  split_ifs with hcode hlen
  · exact ⟨_, rfl⟩
  · exact ⟨_, rfl⟩
  · exact absurd ⟨not_not.mp hcode, Nat.not_lt.mp hlen⟩ h

theorem exists_of_four_le {b : Bytes} (h : 4 ≤ b.length) : ∃ x y z w rest, b = x :: y :: z :: w :: rest := by
  match b, h with
  | x :: y :: z :: w :: rest, _ => exact ⟨x, y, z, w, rest, rfl⟩

theorem exists_of_two_le {b : Bytes} (h : 2 ≤ b.length) : ∃ x y rest, b = x :: y :: rest := by
  match b, h with
  | x :: y :: rest, _ => exact ⟨x, y, rest, rfl⟩

namespace ValueType
variable {F : Type} (ieee : UInt32 ≃ F) (t : ValueType)

/-- The decoder of a type reads a successful item that is long enough as the codec of the type does. -/
theorem decodeAs_ok {item : ReadVarItem} (hcode : item.returnCode = retCodeSuccess)
    (hlen : (t.codec ieee).width ≤ item.data.length) : t.decodeAs ieee item = .ok (t.decode ieee item.data) := by
  obtain ⟨code, transp, raw, data⟩ := item
  have hdata := decodeSuccessItem_ok hcode hlen
  cases t with
  | byte =>
    obtain ⟨x, rest, rfl⟩ := List.exists_cons_of_length_pos hlen
    exact (congrArg (· >>= _) hdata).trans rfl
  | word =>
    obtain ⟨x, y, rest, rfl⟩ := exists_of_two_le hlen
    exact (congrArg (· >>= _) hdata).trans rfl
  | int =>
    obtain ⟨x, y, rest, rfl⟩ := exists_of_two_le hlen
    exact (congrArg (· >>= _) hdata).trans rfl
  | dword =>
    obtain ⟨x, y, z, w, rest, rfl⟩ := exists_of_four_le hlen
    exact (congrArg (· >>= _) hdata).trans (congrArg Outcome.ok (decodeDWord_cons x y z w rest).symm)
  | dint =>
    obtain ⟨x, y, z, w, rest, rfl⟩ := exists_of_four_le hlen
    exact (congrArg (· >>= _) hdata).trans (congrArg Outcome.ok (decodeDInt_cons x y z w rest).symm)
  | real =>
    obtain ⟨x, y, z, w, rest, rfl⟩ := exists_of_four_le hlen
    exact (congrArg (· >>= _) hdata).trans (congrArg (fun v => Outcome.ok (ieee v)) (decodeDWord_cons x y z w rest).symm)

theorem decodeAs_fail {item : ReadVarItem}
    (h : ¬(item.returnCode = retCodeSuccess ∧ (t.codec ieee).width ≤ item.data.length)) :
    ∃ e, t.decodeAs ieee item = .fail e := by
  obtain ⟨e, he⟩ := decodeSuccessItem_fail h
  refine ⟨e, ?_⟩
  cases t <;> exact (congrArg (· >>= _) he).trans rfl

/-- An item decodes to a value when it is successful and its payload starts with the bytes of the value. -/
theorem decodeAs_eq_ok (item : ReadVarItem) (v : t.Carrier F) :
    t.decodeAs ieee item = .ok v ↔ item.returnCode = retCodeSuccess ∧ ∃ rest, item.data = t.encode ieee v ++ rest := by
  rw [t.encode_eq ieee]
  by_cases h : item.returnCode = retCodeSuccess ∧ (t.codec ieee).width ≤ item.data.length
  · rw [t.decodeAs_ok ieee h.1 h.2, t.decode_eq ieee]
    constructor
    · rintro ⟨⟩
      refine ⟨h.1, item.data.drop (t.codec ieee).width, ?_⟩
      rw [(t.codec ieee).encode_decode_take h.2, List.take_append_drop]
    · rintro ⟨-, rest, hdata⟩
      rw [hdata, (t.codec ieee).decode_encode_append]
  · obtain ⟨e, he⟩ := t.decodeAs_fail ieee h
    rw [he]
    refine ⟨fun hok => (by cases hok), ?_⟩
    rintro ⟨hcode, rest, hdata⟩
    refine absurd ⟨hcode, ?_⟩ h
    rw [hdata, List.length_append, (t.codec ieee).length_encode]
    exact Nat.le_add_right _ _

theorem decodeAs_ne_panic (item : ReadVarItem) : t.decodeAs ieee item ≠ .panic := by
  intro hpanic
  by_cases h : item.returnCode = retCodeSuccess ∧ (t.codec ieee).width ≤ item.data.length
  · cases (t.decodeAs_ok ieee h.1 h.2).symm.trans hpanic
  · obtain ⟨e, he⟩ := t.decodeAs_fail ieee h
    cases he.symm.trans hpanic

end ValueType

/-! ### Strings -/

theorem stringSize_bounds (maxLen : Int) : 2 ≤ stringSize maxLen ∧ stringSize maxLen ≤ 256 := by
  unfold stringSize
  omega

theorem length_encodeString (val : Bytes) (maxLen : Int) : (encodeString val maxLen).length = stringSize maxLen := by
  have := stringSize_bounds maxLen
  unfold encodeString
  simp only [List.length_append, List.length_cons, List.length_nil, List.length_take, List.length_replicate]
  omega

/-- A string is the chars that its header states, as far as there are bytes. -/
theorem decodeString_cons (x n : UInt8) (chars : Bytes) : decodeString (x :: n :: chars) = .ok (chars.take n.toNat) := by
  have hlen : ¬(x :: n :: chars).length < 2 := by
    simp only [List.length_cons]
    omega
  unfold decodeString
  rw [if_neg hlen, show indexAt (x :: n :: chars) 1 = .ok n from rfl, Outcome.ok_bind]
  dsimp only
  split
  · rename_i hlong
    simp only [List.length_cons] at hlong ⊢
    rw [sliceOf_of_le (by omega) (by simp only [List.length_cons]; omega), List.drop_succ_cons, List.drop_succ_cons,
      List.drop_zero, List.take_of_length_le (by omega), List.take_of_length_le (by omega)]
  · rename_i hlong
    simp only [List.length_cons] at hlong
    rw [sliceOf_of_le (by omega) (by simp only [List.length_cons]; omega), List.drop_succ_cons, List.drop_succ_cons,
      List.drop_zero, Nat.add_sub_cancel_left]

/-- A string comes back, cut to the chars that its field has room for, whatever follows it. -/
theorem decodeString_encodeString (val : Bytes) (maxLen : Int) (rest : Bytes) :
    decodeString (encodeString val maxLen ++ rest) = .ok (val.take (stringSize maxLen - 2)) := by
  have hsize := stringSize_bounds maxLen
  obtain ⟨n, hn⟩ : ∃ n, n = min val.length (stringSize maxLen - 2) := ⟨_, rfl⟩
  have hbyte : (UInt8.ofNat n).toNat = n := by
    simp
    omega
  have hlen : (val.take n).length = n := by
    rw [List.length_take]
    omega
  unfold encodeString
  dsimp only
  rw [← hn, List.append_assoc, List.append_assoc, List.cons_append, List.cons_append, List.nil_append, decodeString_cons,
    hbyte, List.take_append_of_le_length (by omega), List.take_of_length_le (by omega)]
  exact congrArg Outcome.ok (List.take_eq_take_iff.mpr (by omega))

theorem decodeString_ne_panic (data : Bytes) : decodeString data ≠ .panic := by
  intro hpanic
  cases data with
  | nil => cases hpanic
  | cons x data =>
    cases data with
    | nil => cases hpanic
    | cons n chars => cases (decodeString_cons x n chars).symm.trans hpanic

/-! ### All types -/

theorem decodeBool_encodeBool (val : Bool) (rest : Bytes) : decodeBool (encodeBool val ++ rest) 0 = val := by
  cases val <;> simp [decodeBool, encodeBool]

/-- The values of every type. For the types of a fixed width, decoding takes back what was encoded, whatever follows it.
    Encoding takes back what was decoded, so that two values never have the same bytes and every string of bytes of the
    width is a value. An item of an answer decodes to a value exactly when it is successful and its payload starts with
    the bytes of the value, and it never makes the decoder panic. A BOOL comes back as the first bit of its byte, and a
    STRING comes back cut to the chars that its field has room for. -/
theorem values_exact {F : Type} (ieee : UInt32 ≃ F) :
    (∀ t : ValueType,
      (∀ v rest, t.decode ieee (t.encode ieee v ++ rest) = v) ∧
        (∀ v, (t.encode ieee v).length = (t.codec ieee).width) ∧
        (∀ data : Bytes, data.length = (t.codec ieee).width → t.encode ieee (t.decode ieee data) = data) ∧
        (∀ item v, t.decodeAs ieee item = .ok v ↔
          item.returnCode = retCodeSuccess ∧ ∃ rest, item.data = t.encode ieee v ++ rest) ∧
        ∀ item, t.decodeAs ieee item ≠ .panic) ∧
      (∀ val rest, decodeBool (encodeBool val ++ rest) 0 = val) ∧
      (∀ val maxLen, (encodeString val maxLen).length = stringSize maxLen) ∧
      (∀ val maxLen rest, decodeString (encodeString val maxLen ++ rest) = .ok (val.take (stringSize maxLen - 2))) ∧
      ∀ data, decodeString data ≠ .panic := by
  refine ⟨fun t => ⟨?_, ?_, ?_, t.decodeAs_eq_ok ieee, t.decodeAs_ne_panic ieee⟩, decodeBool_encodeBool,
    length_encodeString, decodeString_encodeString, decodeString_ne_panic⟩
  · rw [t.encode_eq ieee, t.decode_eq ieee]
    exact (t.codec ieee).decode_encode_append
  · rw [t.encode_eq ieee]
    exact (t.codec ieee).length_encode
  · rw [t.encode_eq ieee, t.decode_eq ieee]
    exact (t.codec ieee).encode_decode

/-- With a REAL as its bits: an item that starts with the bytes of 1.5. -/
theorem values_exact_bits :
    ValueType.real.decodeAs (Equiv.refl UInt32) ⟨retCodeSuccess, dataTransportSizeReal, 4, [0x3F, 0xC0, 0x00, 0x00]⟩ =
        .ok (0x3FC00000 : UInt32) ∧
      decodeString (encodeString [0x50, 0x4C, 0x43] 4) = .ok [0x50, 0x4C] := by
  obtain ⟨htypes, -, -, hstring, -⟩ := values_exact (Equiv.refl UInt32)
  obtain ⟨-, -, -, hitem, -⟩ := htypes .real
  exact ⟨(hitem _ _).mpr ⟨rfl, [], rfl⟩, hstring [0x50, 0x4C, 0x43] 4 []⟩

end S7Comm
