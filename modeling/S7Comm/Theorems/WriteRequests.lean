import S7Comm.Theorems.LinkBits
import S7Comm.Theorems.ReadRequests

/-! Write Var jobs against their grammar, and the two encoders of the client as sentences of it. -/

namespace S7Comm
open Go

/-- The specification is the one bit of the address. -/
structure DescribesBit (addr : S7AnyBitAddress) (spec : VarSpec) : Prop where
  syntaxID : spec.syntaxID = syntaxIDS7Any
  transportSize : spec.transportSize = transportSizeBit
  area : spec.area = addr.area
  dbNumber : (spec.dbNumber.toNat : Int) = addr.dbNumber
  count : spec.count = 1
  startBit : (spec.startBit.toNat : Int) = 8 * addr.byteOffset + addr.bitOffset

section Encoders
variable {ref : UInt16} {out : Bytes}

theorem encodeS7Any_eq_ok {addr : S7AnyAddress} {b : Bytes} (h : encodeS7Any addr = .ok b) :
    ∃ item : JobItem, b = item.bytes ∧ item.bytes.length = varSpecSize ∧ Describes addr item.spec := by
  by_cases hr : addr.InRange
  · obtain ⟨item, hitem, hlen, hdesc⟩ := encodeS7Any_of_inRange hr
    rw [hitem] at h
    exact ⟨item, (Outcome.ok.inj h).symm, hlen, hdesc⟩
  · obtain ⟨e, he, -⟩ := encodeS7Any_of_not_inRange hr
    rw [he] at h
    cases h

theorem encodeS7AnyBit_eq_ok {addr : S7AnyBitAddress} {b : Bytes} (h : encodeS7AnyBit addr = .ok b) :
    ∃ item : JobItem, b = item.bytes ∧ item.bytes.length = varSpecSize ∧ DescribesBit addr item.spec := by
  unfold encodeS7AnyBit at h
  split_ifs at h with hdb hbyte hbit
  have hmaxDB : (maxS7AnyDBNumber : Int) = 65535 := rfl
  have hmaxByte : (maxS7AnyByteOffset : Int) = 2097151 := rfl
  have hmaxByte' : maxS7AnyByteOffset = 2097151 := rfl
  have hstart := bitStart_toNat (o := addr.byteOffset.toNat) (k := addr.bitOffset.toNat) (by omega) (by omega)
  refine ⟨.s7any transportSizeBit 1 (UInt16.ofNat addr.dbNumber.toNat) addr.area
    (UInt32.ofNat addr.byteOffset.toNat <<< 3 ||| UInt32.ofNat addr.bitOffset.toNat) (by rw [hstart]; omega),
    (Outcome.ok.inj h).symm, rfl, rfl, rfl, rfl, ?_, rfl, ?_⟩
  · simp only [JobItem.spec]
    rw [uint16_toNat_ofNat (by omega)]
    omega
  · simp only [JobItem.spec]
    rw [hstart]
    omega

/-- A job of one item that was encoded is decoded again from its two sections. -/
theorem parse_message_single (ref : UInt16) {job : JobItem} {item : WriteVarData} (hjob : job.bytes.length = varSpecSize)
    (h : item.Sized) {tail : Bytes} (htail : tail.length ≤ 1) (hsize : item.data.length ≤ 65530) :
    ∃ header rest, parseS7Header (message rosctrJob ref ([funcWriteVar, 1] ++ job.bytes)
        (dataHeader item.returnCode item.transportSize item.rawLength ++ item.data ++ tail)) = .ok (header, rest) ∧
      parseWriteVarRequest (rest.take header.paramLength.toNat)
        ((rest.drop header.paramLength.toNat).take header.dataLength.toNat) = .ok ([job.spec], [item]) := by
  have hparam : ([funcWriteVar, 1] ++ job.bytes).length = 14 := by simp [hjob, varSpecSize]
  have hdata : (dataHeader item.returnCode item.transportSize item.rawLength ++ item.data ++ tail).length ≤ 65535 := by
    simp only [List.length_append, length_dataHeader]
    omega
  refine ⟨_, _, parseS7Header_message (by decide) (by omega) hdata, ?_⟩
  dsimp only
  rw [uint16_toNat_ofNat (by omega), uint16_toNat_ofNat (by omega), List.take_left, List.drop_left, List.take_length,
    ← jobParam_singleton]
  exact parseWriteVarRequest_single job h htail

theorem encodeWriteVarRequest_parses {addr : S7AnyAddress} {value : Bytes}
    (h : encodeWriteVarRequest ref addr value = .ok out) :
    ∃ header rest spec, parseS7Header out = .ok (header, rest) ∧
      parseWriteVarRequest (rest.take header.paramLength.toNat)
        ((rest.drop header.paramLength.toNat).take header.dataLength.toNat) =
          .ok ([spec], [⟨retCodeSuccess, dataTransportSizeByte, UInt16.ofNat (8 * value.length), value⟩]) ∧
      8 * value.length ≤ 65535 ∧ Describes addr spec := by
  unfold encodeWriteVarRequest at h
  dsimp only at h
  split at h
  · cases h
  rename_i hbits
  obtain ⟨b, hb, h⟩ := Outcome.bind_eq_ok.mp h
  obtain ⟨job, rfl, hjob, hdesc⟩ := encodeS7Any_eq_ok hb
  have hsized : WriteVarData.Sized ⟨retCodeSuccess, dataTransportSizeByte, UInt16.ofNat (8 * value.length), value⟩ :=
    .inr ⟨by simp, uint16_toNat_ofNat (by omega)⟩
  have htail : (if value.length % 2 ≠ 0 then [0x00] else [] : Bytes).length ≤ 1 := by split <;> simp
  rw [pad_eq_writeSection, encodeMessage_eq (by simp [hjob, varSpecSize]) (by rw [length_writeSection]; omega)] at h
  cases h
  obtain ⟨header, rest, hheader, hparse⟩ := parse_message_single ref hjob hsized htail (by dsimp only; omega)
  refine ⟨header, rest, job.spec, ?_, hparse, by omega, hdesc⟩
  rw [writeSection, Nat.mul_comm value.length]
  exact hheader

theorem encodeWriteVarBitRequest_parses {addr : S7AnyBitAddress} {value : Bool}
    (h : encodeWriteVarBitRequest ref addr value = .ok out) :
    ∃ header rest spec, parseS7Header out = .ok (header, rest) ∧
      parseWriteVarRequest (rest.take header.paramLength.toNat)
        ((rest.drop header.paramLength.toNat).take header.dataLength.toNat) =
          .ok ([spec], [⟨0x00, dataTransportSizeBit, 1, [if value then 1 else 0]⟩]) ∧ DescribesBit addr spec := by
  unfold encodeWriteVarBitRequest at h
  obtain ⟨b, hb, h⟩ := Outcome.bind_eq_ok.mp h
  obtain ⟨job, rfl, hjob, hdesc⟩ := encodeS7AnyBit_eq_ok hb
  dsimp only at h
  rw [encodeMessage_eq (by simp [hjob, varSpecSize]) (by simp)] at h
  cases h
  have hsized : WriteVarData.Sized ⟨0x00, dataTransportSizeBit, 1, [if value then 1 else 0]⟩ := .inl ⟨by simp, rfl⟩
  have htail : ([0x00] : Bytes).length ≤ 1 := by simp
  obtain ⟨header, rest, hheader, hparse⟩ := parse_message_single ref hjob hsized htail (by simp)
  have hhead : dataHeader 0x00 dataTransportSizeBit 1 = [0x00, dataTransportSizeBit, 0x00, 0x01] := by decide
  dsimp only at hheader
  rw [hhead] at hheader
  exact ⟨header, rest, job.spec, hheader, hparse, hdesc⟩

end Encoders

/-- The decoder of Write Var jobs accepts exactly its grammar: items and data items, pair by pair, with a fill byte
    of any value after an odd payload that is not the last, and at most one byte at the end. Both encoders of the
    client write sentences of it that mean their address and value. -/
theorem parseWriteVarRequest_grammar :
    (∀ (param data : Bytes) (specs : List VarSpec) (items : List WriteVarData),
      parseWriteVarRequest param data = .ok (specs, items) ↔
        ∃ jobs : List JobItem, 1 ≤ jobs.length ∧ jobs.length ≤ 255 ∧ items.length = jobs.length ∧
          param = jobParam funcWriteVar jobs ∧ specs = jobs.map JobItem.spec ∧
          ∃ e tail : Bytes, Series WrittenItem items e ∧ tail.length ≤ 1 ∧ data = e ++ tail) ∧
    (∀ (ref : UInt16) (addr : S7AnyAddress) (value out : Bytes), encodeWriteVarRequest ref addr value = .ok out →
      ∃ header rest spec, parseS7Header out = .ok (header, rest) ∧
        parseWriteVarRequest (rest.take header.paramLength.toNat)
          ((rest.drop header.paramLength.toNat).take header.dataLength.toNat) =
            .ok ([spec], [⟨retCodeSuccess, dataTransportSizeByte, UInt16.ofNat (8 * value.length), value⟩]) ∧
        8 * value.length ≤ 65535 ∧ Describes addr spec) ∧
    (∀ (ref : UInt16) (addr : S7AnyBitAddress) (value : Bool) (out : Bytes),
      encodeWriteVarBitRequest ref addr value = .ok out →
      ∃ header rest spec, parseS7Header out = .ok (header, rest) ∧
        parseWriteVarRequest (rest.take header.paramLength.toNat)
          ((rest.drop header.paramLength.toNat).take header.dataLength.toNat) =
            .ok ([spec], [⟨0x00, dataTransportSizeBit, 1, [if value then 1 else 0]⟩]) ∧ DescribesBit addr spec) := by
  refine ⟨?_, fun ref addr value out h => encodeWriteVarRequest_parses h,
    fun ref addr value out h => encodeWriteVarBitRequest_parses h⟩
  intro param data specs items
  rw [parseWriteVarRequest_eq_ok]
  constructor
  · rintro ⟨jobs, hpos, hle, hparam, hspecs, hlen, hdata⟩
    exact ⟨jobs, hpos, hle, hlen, hparam, hspecs, hdata⟩
  · rintro ⟨jobs, hpos, hle, hlen, hparam, hspecs, hdata⟩
    exact ⟨jobs, hpos, hle, hparam, hspecs, hlen, hdata⟩

end S7Comm
