import S7Comm.Client.ReadWrite
import S7Comm.Theorems.DataGrammar
import S7Comm.Theorems.Handle

/-! The requests the client sends have one BYTE item. The server reads from such a request the area, the data block,
    the offset and the bytes that the client put in. -/

namespace S7Comm
open Go

/-- The item of a client request: `size` bytes of an area from byte `start` on. -/
def byteSpec (area : UInt8) (db start size : Nat) : VarSpec :=
  ⟨syntaxIDS7Any, transportSizeByte, UInt16.ofNat size, UInt16.ofNat db, area, UInt32.ofNat start <<< 3⟩

/-- The address of the item as it stands in a request. -/
def byteItem (area : UInt8) (db start size : Nat) : Bytes :=
  putS7Any transportSizeByte (UInt16.ofNat size) (UInt16.ofNat db) area (UInt32.ofNat start <<< 3)

/-- The bounds that `validateAddress`, `validateRangeEnd` and the chunk size give an item. -/
structure Addressable (db start size : Nat) : Prop where
  db_le : db ≤ 65535
  start_le : start ≤ maxS7AnyByteOffset
  size_le : size ≤ 65535

section Fields
variable {area : UInt8} {db start size : Nat}

theorem startBit_toNat (h : start ≤ maxS7AnyByteOffset) : (UInt32.ofNat start <<< 3).toNat = start * 8 := by
  have h' : start ≤ 2097151 := h
  rw [UInt32.toNat_shiftLeft, Nat.shiftLeft_eq]
  simp
  omega

@[simp] theorem length_byteItem : (byteItem area db start size).length = 12 := by
  simp [byteItem, putS7Any, putUint24]

theorem encodeS7Any_eq (h : Addressable db start size) :
    encodeS7Any ⟨area, db, start, size⟩ = .ok (byteItem area db start size) := by
  obtain ⟨hdb, hstart, hsize⟩ := h
  have hdb' : db ≤ maxS7AnyDBNumber := hdb
  have hsize' : size ≤ maxS7AnyCount := hsize
  unfold encodeS7Any
  rw [if_neg (by dsimp only; omega), if_neg (by dsimp only; omega), if_neg (by dsimp only; omega)]
  rfl

end Fields

/-! ### Requests -/

section Requests
variable {area : UInt8} {db start size : Nat}

theorem encodeReadVarRequest_eq (ref : UInt16) (h : Addressable db start size) :
    encodeReadVarRequest ref [⟨area, db, start, size⟩] =
      .ok (message rosctrJob ref ([funcReadVar, 1] ++ byteItem area db start size) []) := by
  unfold encodeReadVarRequest
  rw [List.mapM_cons, encodeS7Any_eq h]
  simp only [List.length_cons, List.length_nil, List.mapM_nil, Outcome.ok_bind, Outcome.pure_eq, List.flatten_cons,
    List.flatten_nil, List.append_nil]
  rw [if_neg (by decide), encodeMessage_eq (by simp) (by simp)]
  rfl

theorem length_readRequest (ref : UInt16) :
    (message rosctrJob ref ([funcReadVar, 1] ++ byteItem area db start size) []).length = readVarRequestOverhead := by
  simp [length_message, readVarRequestOverhead, s7HeaderSize]

/-- The data section of a Write Var request: an even number of bytes. -/
def writeSection (value : Bytes) : Bytes :=
  [retCodeSuccess, dataTransportSizeByte] ++ putUint16 (UInt16.ofNat (value.length * 8)) ++ value ++
    (if value.length % 2 ≠ 0 then [0x00] else [])

theorem length_writeSection (value : Bytes) :
    (writeSection value).length = 4 + value.length + value.length % 2 := by
  unfold writeSection
  rcases Nat.mod_two_eq_zero_or_one value.length with h | h
  · simp [h]
    omega
  · simp [h]
    omega

theorem pad_eq_writeSection (value : Bytes) :
    (if ([retCodeSuccess, (0x04 : UInt8)] ++ putUint16 (UInt16.ofNat (value.length * 8)) ++ value).length % 2 ≠ 0
      then [retCodeSuccess, (0x04 : UInt8)] ++ putUint16 (UInt16.ofNat (value.length * 8)) ++ value ++ [0x00]
      else [retCodeSuccess, (0x04 : UInt8)] ++ putUint16 (UInt16.ofNat (value.length * 8)) ++ value) =
      writeSection value := by
  unfold writeSection
  rcases Nat.mod_two_eq_zero_or_one value.length with hv | hv
  · rw [if_neg (by simp; omega), if_neg (by omega), List.append_nil]
    rfl
  · rw [if_pos (by simp; omega), if_pos (by omega)]
    rfl

theorem encodeWriteVarRequest_eq (ref : UInt16) {value : Bytes} (h : Addressable db start value.length)
    (hbits : value.length * 8 ≤ 65535) :
    encodeWriteVarRequest ref ⟨area, db, start, value.length⟩ value =
      .ok (message rosctrJob ref ([funcWriteVar, 1] ++ byteItem area db start value.length) (writeSection value)) := by
  unfold encodeWriteVarRequest
  rw [if_neg (by omega), encodeS7Any_eq h, Outcome.ok_bind]
  dsimp only
  rw [pad_eq_writeSection, encodeMessage_eq (by simp) (by rw [length_writeSection]; omega)]

theorem encodeWriteVarRequest_fail (ref : UInt16) (addr : S7AnyAddress) {value : Bytes}
    (hbits : ¬value.length * 8 ≤ 65535) : ∃ e, encodeWriteVarRequest ref addr value = .fail e := by
  unfold encodeWriteVarRequest
  rw [if_pos (by omega)]
  exact ⟨_, rfl⟩

theorem length_writeRequest (ref : UInt16) (value : Bytes) :
    (message rosctrJob ref ([funcWriteVar, 1] ++ byteItem area db start size) (writeSection value)).length =
      writeVarRequestOverhead + value.length + value.length % 2 := by
  simp [length_message, length_writeSection, writeVarRequestOverhead, s7HeaderSize]
  omega

/-- The server reads the one item of a parameter section as the client put its fields. -/
theorem parseVarSpecs_putS7Any (fn transport : UInt8) (count dbNumber : UInt16) (area : UInt8) {startBit : UInt32}
    (h : startBit.toNat < 2 ^ 24) :
    parseVarSpecs ([fn, 1] ++ putS7Any transport count dbNumber area startBit) fn =
      .ok [⟨syntaxIDS7Any, transport, count, dbNumber, area, startBit⟩] := by
  refine parseVarSpecs_eq_ok.mpr ⟨[.s7any transport count dbNumber area startBit h], by simp, by simp, ?_, rfl⟩
  rw [jobParam_singleton]
  rfl

theorem parseVarSpecs_byteItem (fn : UInt8) (h : Addressable db start size) :
    parseVarSpecs ([fn, 1] ++ byteItem area db start size) fn = .ok [byteSpec area db start size] := by
  have h' : start ≤ 2097151 := h.start_le
  exact parseVarSpecs_putS7Any fn _ _ _ _ (by rw [startBit_toNat h.start_le]; omega)

/-- The server reads the data item the client wrote. -/
theorem parseWriteVarRequest_byteItem {value : Bytes} (h : Addressable db start value.length)
    (hbits : value.length * 8 ≤ 65535) :
    parseWriteVarRequest ([funcWriteVar, 1] ++ byteItem area db start value.length) (writeSection value) =
      .ok ([byteSpec area db start value.length],
        [⟨retCodeSuccess, dataTransportSizeByte, UInt16.ofNat (value.length * 8), value⟩]) := by
  have hraw : (UInt16.ofNat (value.length * 8)).toNat = 8 * value.length := by
    rw [uint16_toNat_ofNat (by omega), Nat.mul_comm]
  have hbit : (UInt32.ofNat start <<< 3).toNat < 2 ^ 24 := by
    have h' : start ≤ 2097151 := h.start_le
    rw [startBit_toNat h.start_le]
    omega
  have hsized : WriteVarData.Sized ⟨retCodeSuccess, dataTransportSizeByte, UInt16.ofNat (value.length * 8), value⟩ :=
    .inr ⟨by simp, hraw⟩
  have htail : (if value.length % 2 ≠ 0 then [0x00] else [] : Bytes).length ≤ 1 := by split <;> simp
  have hparse := parseWriteVarRequest_single
    (.s7any transportSizeByte (UInt16.ofNat value.length) (UInt16.ofNat db) area (UInt32.ofNat start <<< 3) hbit)
    hsized htail
  rw [jobParam_singleton] at hparse
  exact hparse

end Requests

/-! ### Framing -/

section Framing
variable {cfg : ServerConfig} {rosctr : UInt8} {ref : UInt16} {param data : Bytes}

/-- The server takes a request apart into the sections the client framed. -/
theorem handle_message (hp : param.length ≤ 65535) (hd : data.length ≤ 65535) (s : Session) :
    handle cfg (message rosctr ref param data) s = dispatch cfg rosctr ref param data s := by
  have hcons : message rosctr ref param data = 0x32 :: rosctr :: 0 :: 0 :: (ref >>> 8).toUInt8 :: ref.toUInt8 ::
      (UInt16.ofNat param.length >>> 8).toUInt8 :: (UInt16.ofNat param.length).toUInt8 ::
      (UInt16.ofNat data.length >>> 8).toUInt8 :: (UInt16.ofNat data.length).toUInt8 :: (param ++ data) := by
    simp [message, s7Header, putUint16]
  have hparam : declaredLength (message rosctr ref param data) 6 = param.length := by
    rw [declaredLength, hcons]
    simp only [List.getD_cons_succ, List.getD_cons_zero, be16_putUint16]
    exact uint16_toNat_ofNat (by omega)
  have hdata : declaredLength (message rosctr ref param data) 8 = data.length := by
    rw [declaredLength, hcons]
    simp only [List.getD_cons_succ, List.getD_cons_zero, be16_putUint16]
    exact uint16_toNat_ofNat (by omega)
  have hread : ¬Unreadable (message rosctr ref param data) := by
    unfold Unreadable
    rw [hparam, hdata, length_message]
    simp [hcons]
    omega
  have href : requestRef (message rosctr ref param data) = ref := by
    rw [requestRef, hcons]
    simp only [List.getD_cons_succ, List.getD_cons_zero, be16_putUint16]
  have hdrop : (message rosctr ref param data).drop 10 = param ++ data := by
    rw [hcons]
    rfl
  have hrosctr : requestRosctr (message rosctr ref param data) = rosctr := by
    rw [requestRosctr, hcons]
    rfl
  rw [handle_readable hread, paramSection, dataSection, hparam, href, hrosctr, ← List.drop_drop, hdrop,
    List.take_left' rfl, List.drop_left' rfl]

end Framing

/-! ### The item in memory -/

section Item
variable {mem : Memory} {area : UInt8} {db start size : Nat} {key : AreaKey} {reg : Region}

theorem locate_byteSpec {len : Nat} (h : Addressable db start size) (hpos : 0 < size)
    (hplain : Area.timerOrCounter area = false) :
    locate (byteSpec area db start size) len =
      if start + size > len then .error retCodeAddressFault else .ok { start, bit := 0, size } := by
  have hbit : (byteSpec area db start size).startBit.toNat = start * 8 := startBit_toNat h.start_le
  have hcount : (byteSpec area db start size).count.toNat = size := uint16_toNat_ofNat (by have := h.size_le; omega)
  have hper : elementSize (byteSpec area db start size).transportSize = 1 := rfl
  have htc : ((byteSpec area db start size).transportSize == transportTimer ||
      (byteSpec area db start size).transportSize == transportCounter) = false := rfl
  have hisBit : ((byteSpec area db start size).transportSize == transportSizeBit) = false := rfl
  have harea : Area.timerOrCounter (byteSpec area db start size).area = false := hplain
  unfold locate
  simp only [hper, htc, hisBit, harea, hcount, hbit, Nat.one_mul]
  rw [if_neg (by decide), if_neg (by simp), if_neg (by simp; omega), if_neg (by simp)]
  simp only [Bool.false_eq_true, ↓reduceIte, Nat.mul_div_cancel start (show 0 < 8 by decide), Nat.mul_mod_left]

theorem resolve_byteSpec (h : Addressable db start size) (hpos : 0 < size) (hplain : Area.timerOrCounter area = false)
    (hkey : keyOf area db = .ok key) (hreg : mem.regions key = some reg) :
    resolve mem (byteSpec area db start size) =
      if start + size > reg.data.length then .error retCodeAddressFault
      else .ok { start, bit := 0, size, key, reg, isBit := false, transp := transportSizeByte, area } := by
  have hdb : (byteSpec area db start size).dbNumber.toNat = db := uint16_toNat_ofNat (by have := h.db_le; omega)
  unfold resolve
  rw [if_neg (by simp [byteSpec]), hdb]
  simp only [show keyOf (byteSpec area db start size).area db = .ok key from hkey, hreg, locate_byteSpec h hpos hplain]
  by_cases hend : start + size > reg.data.length
  · simp only [if_pos hend]
  · simp only [if_neg hend]
    rfl

end Item

end S7Comm
