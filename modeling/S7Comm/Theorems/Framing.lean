import S7Comm.Lib.Series
import S7Comm.Theorems.AnswerBounds
import S7Comm.Theorems.Header

/-! Framing as a round trip. A PDU is its header and its two sections; the parser finds them again whatever follows
    the PDU, and it refuses a PDU that was cut off anywhere. -/

namespace S7Comm
open Go

/-! ### More bytes -/

section More
variable {data rest : Bytes} {rosctr : UInt8} {header : S7Header}

theorem indexAt_append {i : Nat} {x : UInt8} (h : indexAt data i = .ok x) (more : Bytes) :
    indexAt (data ++ more) i = .ok x := by
  obtain ⟨before, after, rfl, rfl⟩ := index_eq_ok_iff.mp h
  exact index_eq_ok_iff.mpr ⟨before, after ++ more, by simp, rfl⟩

theorem wordAt_append {i : Nat} {v : UInt16} (h : wordAt data i = .ok v) (more : Bytes) :
    wordAt (data ++ more) i = .ok v := by
  obtain ⟨before, after, rfl, rfl⟩ := uint16At_eq_ok_iff.mp h
  exact uint16At_eq_ok_iff.mpr ⟨before, after ++ more, by simp, rfl⟩

theorem ackError_append {r : UInt8 × UInt8 × Nat} (h : ackError data rosctr = .ok r) (more : Bytes) :
    ackError (data ++ more) rosctr = .ok r := by
  unfold ackError at h ⊢
  split at h
  · rename_i hack
    split at h
    · cases h
    · rename_i hlen
      obtain ⟨errClass, hclass, h⟩ := Outcome.bind_eq_ok.mp h
      obtain ⟨errCode, hcode, h⟩ := Outcome.bind_eq_ok.mp h
      rw [if_pos hack, if_neg (by rw [List.length_append]; omega), indexAt_append hclass, Outcome.ok_bind,
        indexAt_append hcode]
      exact h
  · rename_i hplain
    rw [if_neg hplain]
    exact h

/-- A header that is accepted is accepted with more bytes behind it, and they follow the rest. -/
theorem parseS7Header_append (h : parseS7Header data = .ok (header, rest)) (more : Bytes) :
    parseS7Header (data ++ more) = .ok (header, rest ++ more) := by
  unfold parseS7Header at h ⊢
  split at h
  · cases h
  rename_i hlen
  rw [if_neg (by rw [List.length_append]; omega)]
  obtain ⟨protocolID, hid, h⟩ := Outcome.bind_eq_ok.mp h
  rw [indexAt_append hid, Outcome.ok_bind]
  split at h
  · cases h
  rename_i hproto
  rw [if_neg hproto]
  obtain ⟨rosctr, hrosctr, h⟩ := Outcome.bind_eq_ok.mp h
  obtain ⟨redundancyID, hred, h⟩ := Outcome.bind_eq_ok.mp h
  obtain ⟨pduRef, href, h⟩ := Outcome.bind_eq_ok.mp h
  obtain ⟨paramLength, hparam, h⟩ := Outcome.bind_eq_ok.mp h
  obtain ⟨dataLength, hdata, h⟩ := Outcome.bind_eq_ok.mp h
  obtain ⟨⟨cls, code, offset⟩, hack, h⟩ := Outcome.bind_eq_ok.mp h
  obtain ⟨tail, htail, h⟩ := Outcome.bind_eq_ok.mp h
  rw [indexAt_append hrosctr, Outcome.ok_bind, wordAt_append hred, Outcome.ok_bind, wordAt_append href,
    Outcome.ok_bind, wordAt_append hparam, Outcome.ok_bind, wordAt_append hdata, Outcome.ok_bind,
    ackError_append hack, Outcome.ok_bind]
  obtain ⟨hle, -, rfl⟩ := slice_eq_ok.mp htail
  dsimp only
  rw [sliceOf_of_le (by rw [List.length_append]; omega) (Nat.le_refl _), Outcome.ok_bind,
    List.take_of_length_le (by simp), List.drop_append_of_le_length hle]
  rw [List.take_of_length_le (by simp)] at h
  dsimp only at h
  split at h
  · cases h
  rename_i hfits
  cases h
  rw [if_neg (by rw [List.length_append]; omega)]
  rfl

end More

/-! ### Round trip -/

/-- What a framing of two sections is to do: refuse sections that are too long for their length fields, and else give
    a PDU that begins with `head`, from which the parser takes `header` and the sections, and of which it takes no
    beginning. -/
structure RoundTrips (framed : Res Bytes) (head : Bytes) (header : S7Header) (param data : Bytes) : Prop where
  refused : (∃ e, framed = .fail e ∧ e.is .outOfRange = true) ↔ 65535 < param.length ∨ 65535 < data.length
  framed : param.length ≤ 65535 → data.length ≤ 65535 → framed = .ok (head ++ param ++ data)
  lengths : param.length ≤ 65535 → data.length ≤ 65535 →
    header.paramLength.toNat = param.length ∧ header.dataLength.toNat = data.length
  parsed : param.length ≤ 65535 → data.length ≤ 65535 → ∀ more,
    parseS7Header (head ++ param ++ data ++ more) = .ok (header, param ++ data ++ more)
  truncated : param.length ≤ 65535 → data.length ≤ 65535 → ∀ k, k < (head ++ param ++ data).length →
    ∃ e, parseS7Header ((head ++ param ++ data).take k) = .fail e

section RoundTrip
variable {framed : Res Bytes} {head param data : Bytes} {header : S7Header}

/-- A beginning that the parser took would have all bytes that the header of the whole PDU declares. -/
theorem parseS7Header_truncated {pdu : Bytes}
    (hparse : parseS7Header pdu = .ok (header, param ++ data)) (hp : header.paramLength.toNat = param.length)
    (hd : header.dataLength.toNat = data.length) {k : Nat} (hk : k < pdu.length) :
    ∃ e, parseS7Header (pdu.take k) = .fail e := by
  rcases parseS7Header_spec (pdu.take k) with hfail | ⟨header', rest, htaken, -⟩
  · exact hfail
  · have hwhole := parseS7Header_append htaken (pdu.drop k)
    rw [List.take_append_drop, hparse] at hwhole
    obtain ⟨rfl, hrest⟩ : header = header' ∧ param ++ data = rest ++ pdu.drop k := by simpa using hwhole
    obtain ⟨-, hfits⟩ := parseS7Header_rest htaken
    have hlen := congrArg List.length hrest
    rw [List.length_append, List.length_append, List.length_drop] at hlen
    omega

theorem RoundTrips.of
    (hfail : 65535 < param.length ∨ 65535 < data.length → ∃ e, framed = .fail e ∧ e.is .outOfRange = true)
    (hok : param.length ≤ 65535 → data.length ≤ 65535 → framed = .ok (head ++ param ++ data))
    (hp : header.paramLength = UInt16.ofNat param.length) (hd : header.dataLength = UInt16.ofNat data.length)
    (hparse : param.length ≤ 65535 → data.length ≤ 65535 → ∀ more,
      parseS7Header (head ++ param ++ data ++ more) = .ok (header, param ++ data ++ more)) :
    RoundTrips framed head header param data := by
  have hlengths (h₁ : param.length ≤ 65535) (h₂ : data.length ≤ 65535) :
      header.paramLength.toNat = param.length ∧ header.dataLength.toNat = data.length := by
    rw [hp, hd, uint16_toNat_ofNat (by omega), uint16_toNat_ofNat (by omega)]
    exact ⟨rfl, rfl⟩
  refine ⟨⟨?_, hfail⟩, hok, hlengths, hparse, ?_⟩
  · rintro ⟨e, he, -⟩
    by_contra hfits
    rw [hok (by omega) (by omega)] at he
    cases he
  · intro h₁ h₂ k hk
    have hwhole := hparse h₁ h₂ []
    rw [List.append_nil, List.append_nil] at hwhole
    exact parseS7Header_truncated hwhole (hlengths h₁ h₂).1 (hlengths h₁ h₂).2 hk

end RoundTrip

/-- Jobs, user data PDUs and Ack-Data PDUs are framed and parsed back exactly. -/
theorem frames_roundTrip (ref : UInt16) (errClass errCode : UInt8) (param data : Bytes) :
    (∀ rosctr, rosctr = rosctrJob ∨ rosctr = rosctrUserdata →
      RoundTrips (encodeMessage rosctr ref param data)
        (s7Header rosctr ref (UInt16.ofNat param.length) (UInt16.ofNat data.length))
        ⟨0x32, rosctr, 0, ref, UInt16.ofNat param.length, UInt16.ofNat data.length, 0, 0⟩ param data) ∧
      RoundTrips (encodeAckData ref errClass errCode param data)
        (s7Header rosctrAckData ref (UInt16.ofNat param.length) (UInt16.ofNat data.length) ++ [errClass, errCode])
        ⟨0x32, rosctrAckData, 0, ref, UInt16.ofNat param.length, UInt16.ofNat data.length, errClass, errCode⟩
        param data := by
  constructor
  · intro rosctr hr
    have hplain : ¬(rosctr = rosctrAckData ∨ rosctr = rosctrAck) := by
      rcases hr with rfl | rfl <;> decide
    exact .of encodeMessage_fail encodeMessage_eq rfl rfl (parseS7Header_message_append hplain)
  · exact .of encodeAckData_fail encodeAckData_eq rfl rfl parseS7Header_ackData_append

end S7Comm
