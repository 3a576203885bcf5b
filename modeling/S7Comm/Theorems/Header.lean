import S7Comm.Wire.Header

/-! Framing. The encoders succeed exactly when both sections fit their 16-bit length fields, and the parser
    reads back what they wrote. -/

namespace S7Comm
open Go

theorem checkedUint16_natCast {name : String} {n : Nat} (h : n ≤ 65535) :
    checkedUint16 name n = .ok (UInt16.ofNat n) := by
  unfold checkedUint16
  rw [if_neg (by omega)]
  rfl

theorem checkedUint16_of_gt (name : String) {n : Nat} (h : 65535 < n) :
    ∃ e, checkedUint16 name n = .fail e ∧ e.is .outOfRange = true := by
  unfold checkedUint16
  rw [if_pos (by omega)]
  exact ⟨_, rfl, rfl⟩

@[simp] theorem length_s7Header (rosctr : UInt8) (ref p d : UInt16) : (s7Header rosctr ref p d).length = 10 := by
  simp [s7Header]

theorem encodeS7Header_eq {rosctr : UInt8} {ref : UInt16} {p d : Nat} (hp : p ≤ 65535) (hd : d ≤ 65535) :
    encodeS7Header rosctr ref p d = .ok (s7Header rosctr ref (UInt16.ofNat p) (UInt16.ofNat d)) := by
  simp [encodeS7Header, checkedUint16_natCast hp, checkedUint16_natCast hd]

theorem encodeS7Header_fail (rosctr : UInt8) (ref : UInt16) {p d : Nat} (h : 65535 < p ∨ 65535 < d) :
    ∃ e, encodeS7Header rosctr ref p d = .fail e ∧ e.is .outOfRange = true := by
  by_cases hp : p ≤ 65535
  · obtain ⟨e, he, his⟩ := checkedUint16_of_gt "data length" (h.resolve_left (by omega))
    exact ⟨e, by simp [encodeS7Header, checkedUint16_natCast hp, he], his⟩
  · obtain ⟨e, he, his⟩ := checkedUint16_of_gt "parameter length" (n := p) (by omega)
    exact ⟨e, by simp [encodeS7Header, he], his⟩

/-! ### Messages -/

/-- A PDU with a 10-byte header, for sections that fit their length fields. -/
def message (rosctr : UInt8) (ref : UInt16) (param data : Bytes) : Bytes :=
  s7Header rosctr ref (UInt16.ofNat param.length) (UInt16.ofNat data.length) ++ param ++ data

/-- An Ack-Data PDU, for sections that fit their length fields. -/
def ackData (ref : UInt16) (errClass errCode : UInt8) (param data : Bytes) : Bytes :=
  s7Header rosctrAckData ref (UInt16.ofNat param.length) (UInt16.ofNat data.length) ++ [errClass, errCode] ++
    param ++ data

section Encode
variable {rosctr errClass errCode : UInt8} {ref : UInt16} {param data : Bytes}

@[simp] theorem length_message : (message rosctr ref param data).length = 10 + param.length + data.length := by
  simp [message, Nat.add_assoc]

@[simp] theorem length_ackData :
    (ackData ref errClass errCode param data).length = 12 + param.length + data.length := by
  simp [ackData]
  omega

theorem encodeMessage_eq (hp : param.length ≤ 65535) (hd : data.length ≤ 65535) :
    encodeMessage rosctr ref param data = .ok (message rosctr ref param data) := by
  simp [encodeMessage, encodeS7Header_eq hp hd, message]

theorem encodeAckData_eq (hp : param.length ≤ 65535) (hd : data.length ≤ 65535) :
    encodeAckData ref errClass errCode param data = .ok (ackData ref errClass errCode param data) := by
  simp [encodeAckData, encodeS7Header_eq hp hd, ackData]

theorem encodeMessage_fail (h : 65535 < param.length ∨ 65535 < data.length) :
    ∃ e, encodeMessage rosctr ref param data = .fail e ∧ e.is .outOfRange = true := by
  obtain ⟨e, he, his⟩ := encodeS7Header_fail rosctr ref h
  exact ⟨e, by simp [encodeMessage, he], his⟩

theorem encodeAckData_fail (h : 65535 < param.length ∨ 65535 < data.length) :
    ∃ e, encodeAckData ref errClass errCode param data = .fail e ∧ e.is .outOfRange = true := by
  obtain ⟨e, he, his⟩ := encodeS7Header_fail rosctrAckData ref h
  exact ⟨e, by simp [encodeAckData, he], his⟩

end Encode

/-! ### Parsing -/

/-- The bytes that the header of a PDU takes. -/
def S7Header.size (h : S7Header) : Nat :=
  if h.rosctr = rosctrAckData ∨ h.rosctr = rosctrAck then s7HeaderSize + 2 else s7HeaderSize

section Parse
variable {rosctr : UInt8} (rest : Bytes)

theorem ackError_ack (hr : rosctr = rosctrAckData ∨ rosctr = rosctrAck)
    (b₀ b₁ r₁ r₀ f₁ f₀ p₁ p₀ d₁ d₀ errClass errCode : UInt8) :
    ackError (b₀ :: b₁ :: r₁ :: r₀ :: f₁ :: f₀ :: p₁ :: p₀ :: d₁ :: d₀ :: errClass :: errCode :: rest) rosctr =
      .ok (errClass, errCode, 12) := by
  unfold ackError
  rw [if_pos hr, if_neg (by simp [s7HeaderSize])]
  simp [s7HeaderSize]

theorem parseS7Header_ack (hr : rosctr = rosctrAckData ∨ rosctr = rosctrAck)
    (r₁ r₀ f₁ f₀ p₁ p₀ d₁ d₀ errClass errCode : UInt8)
    (h : (be16 p₁ p₀).toNat + (be16 d₁ d₀).toNat ≤ rest.length) :
    parseS7Header (0x32 :: rosctr :: r₁ :: r₀ :: f₁ :: f₀ :: p₁ :: p₀ :: d₁ :: d₀ :: errClass :: errCode :: rest) =
      .ok (⟨0x32, rosctr, be16 r₁ r₀, be16 f₁ f₀, be16 p₁ p₀, be16 d₁ d₀, errClass, errCode⟩, rest) := by
  unfold parseS7Header
  rw [if_neg (by simp [s7HeaderSize])]
  simp [ackError_ack rest hr]
  simpa using h

theorem parseS7Header_plain (hr : ¬(rosctr = rosctrAckData ∨ rosctr = rosctrAck))
    (r₁ r₀ f₁ f₀ p₁ p₀ d₁ d₀ : UInt8) (h : (be16 p₁ p₀).toNat + (be16 d₁ d₀).toNat ≤ rest.length) :
    parseS7Header (0x32 :: rosctr :: r₁ :: r₀ :: f₁ :: f₀ :: p₁ :: p₀ :: d₁ :: d₀ :: rest) =
      .ok (⟨0x32, rosctr, be16 r₁ r₀, be16 f₁ f₀, be16 p₁ p₀, be16 d₁ d₀, 0, 0⟩, rest) := by
  unfold parseS7Header ackError
  rw [if_neg (by simp [s7HeaderSize])]
  simp [s7HeaderSize, hr]
  simpa using h

end Parse

section RoundTrip
variable {rosctr errClass errCode : UInt8} {ref : UInt16} {param data : Bytes}

/-- An Ack-Data PDU parses to its header and its sections, whatever follows it. -/
theorem parseS7Header_ackData_append (hp : param.length ≤ 65535) (hd : data.length ≤ 65535) (more : Bytes) :
    parseS7Header (ackData ref errClass errCode param data ++ more) =
      .ok (⟨0x32, rosctrAckData, 0, ref, UInt16.ofNat param.length, UInt16.ofNat data.length, errClass, errCode⟩,
        param ++ data ++ more) := by
  have h := parseS7Header_ack (param ++ data ++ more) (.inl rfl) 0 0 (ref >>> 8).toUInt8 ref.toUInt8
    (UInt16.ofNat param.length >>> 8).toUInt8 (UInt16.ofNat param.length).toUInt8
    (UInt16.ofNat data.length >>> 8).toUInt8 (UInt16.ofNat data.length).toUInt8 errClass errCode (by
      rw [be16_putUint16, be16_putUint16, uint16_toNat_ofNat (by omega), uint16_toNat_ofNat (by omega)]
      simp)
  rw [be16_putUint16, be16_putUint16, be16_putUint16] at h
  simpa [ackData, s7Header, putUint16] using h

theorem parseS7Header_ackData (hp : param.length ≤ 65535) (hd : data.length ≤ 65535) :
    parseS7Header (ackData ref errClass errCode param data) =
      .ok (⟨0x32, rosctrAckData, 0, ref, UInt16.ofNat param.length, UInt16.ofNat data.length, errClass, errCode⟩,
        param ++ data) := by
  simpa only [List.append_nil] using parseS7Header_ackData_append hp hd []

/-- A PDU that is neither Ack nor Ack-Data parses to its header and its sections, whatever follows it. -/
theorem parseS7Header_message_append (hr : ¬(rosctr = rosctrAckData ∨ rosctr = rosctrAck)) (hp : param.length ≤ 65535)
    (hd : data.length ≤ 65535) (more : Bytes) :
    parseS7Header (message rosctr ref param data ++ more) =
      .ok (⟨0x32, rosctr, 0, ref, UInt16.ofNat param.length, UInt16.ofNat data.length, 0, 0⟩, param ++ data ++ more) := by
  have h := parseS7Header_plain (param ++ data ++ more) hr 0 0 (ref >>> 8).toUInt8 ref.toUInt8
    (UInt16.ofNat param.length >>> 8).toUInt8 (UInt16.ofNat param.length).toUInt8
    (UInt16.ofNat data.length >>> 8).toUInt8 (UInt16.ofNat data.length).toUInt8 (by
      rw [be16_putUint16, be16_putUint16, uint16_toNat_ofNat (by omega), uint16_toNat_ofNat (by omega)]
      simp)
  rw [be16_putUint16, be16_putUint16, be16_putUint16] at h
  simpa [message, s7Header, putUint16] using h

theorem parseS7Header_message (hr : ¬(rosctr = rosctrAckData ∨ rosctr = rosctrAck)) (hp : param.length ≤ 65535)
    (hd : data.length ≤ 65535) :
    parseS7Header (message rosctr ref param data) =
      .ok (⟨0x32, rosctr, 0, ref, UInt16.ofNat param.length, UInt16.ofNat data.length, 0, 0⟩, param ++ data) := by
  simpa only [List.append_nil] using parseS7Header_message_append hr hp hd []

end RoundTrip
end S7Comm
