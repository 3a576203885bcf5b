import S7Comm.Wire.Header

/-! Read Var and Write Var as a client sends and reads them (`wire/pdu_rw.go`). An item of a request is a
    12-byte S7ANY address; an item of an answer is a 4-byte header, a payload, and a fill byte after an
    odd payload when another item follows. The item loops of the source run over an index `i` and carry
    an offset; here they recur on the number of items left. -/

namespace S7Comm
open Go

def areaInputs : UInt8 := 0x81
def areaOutputs : UInt8 := 0x82
def areaMerkers : UInt8 := 0x83
def areaDB : UInt8 := 0x84
def areaCounter : UInt8 := 0x1C
def areaTimer : UInt8 := 0x1D

def areaNames : List (UInt8 × String) := [
  (0x01, "RECORD"), (0x03, "SI200"), (0x05, "SF200"), (0x06, "AI200"), (0x07, "AO200"), (0x80, "P"),
  (areaInputs, "I"), (areaOutputs, "Q"), (areaMerkers, "M"), (areaDB, "DB"), (0x85, "DI"), (0x86, "L"),
  (0x87, "V"), (areaCounter, "C"), (areaTimer, "T"), (30, "C200"), (31, "T200")]

def areaString (area : UInt8) : String :=
  match areaNames.lookup area with
  | some s => s
  | none => "0x" ++ hexByte area

def syntaxIDS7Any : UInt8 := 0x10
def syntaxIDDBRead : UInt8 := 0xB0

/-! ### Transport sizes of a request -/

def transportSizeBit : UInt8 := 0x01
def transportSizeByte : UInt8 := 0x02
def transportSizeChar : UInt8 := 0x03
def transportSizeWord : UInt8 := 0x04
def transportSizeInt : UInt8 := 0x05
def transportSizeDWord : UInt8 := 0x06
def transportSizeDInt : UInt8 := 0x07
def transportSizeReal : UInt8 := 0x08

/-! ### Transport sizes of a data section -/

def dataTransportSizeBit : UInt8 := 0x03
def dataTransportSizeByte : UInt8 := 0x04
def dataTransportSizeInt : UInt8 := 0x05
def dataTransportSizeDInt : UInt8 := 0x06
def dataTransportSizeReal : UInt8 := 0x07
def dataTransportSizeOctet : UInt8 := 0x09

/-! ### Addresses -/

structure S7AnyAddress where
  area : UInt8
  dbNumber : Int
  start : Int
  size : Int
  deriving Repr, DecidableEq

def maxS7AnyDBNumber : Nat := 65535
def maxS7AnyByteOffset : Nat := 0xFFFFFF >>> 3
def maxS7AnyCount : Nat := 65535
def maxReadVarItems : Nat := 255
def maxWriteVarBytes : Nat := 65535 >>> 3

def putS7Any (transport : UInt8) (count dbNumber : UInt16) (area : UInt8) (startBit : UInt32) : Bytes :=
  [0x12, 0x0A, syntaxIDS7Any, transport] ++ putUint16 count ++ putUint16 dbNumber ++ [area] ++ putUint24 startBit

/-- A byte-oriented address: start and size in bytes, transport size BYTE. -/
def encodeS7Any (addr : S7AnyAddress) : Res Bytes :=
  if addr.dbNumber < 0 ∨ addr.dbNumber > maxS7AnyDBNumber then
    .fail (Sentinel.outOfRange.wrapped s!"DB number {addr.dbNumber} not in 0..{maxS7AnyDBNumber}")
  else if addr.start < 0 ∨ addr.start > maxS7AnyByteOffset then
    .fail (Sentinel.outOfRange.wrapped s!"start {addr.start} not in 0..{maxS7AnyByteOffset}")
  else if addr.size < 0 ∨ addr.size > maxS7AnyCount then
    .fail (Sentinel.outOfRange.wrapped s!"size {addr.size} not in 0..{maxS7AnyCount}")
  else
    .ok (putS7Any transportSizeByte (UInt16.ofNat addr.size.toNat) (UInt16.ofNat addr.dbNumber.toNat) addr.area
      (UInt32.ofNat addr.start.toNat <<< 3))

def readVarRequestOverhead : Nat := s7HeaderSize + 2 + 12
def writeVarRequestOverhead : Nat := s7HeaderSize + 2 + 12 + 4

/-! ### Read Var -/

def encodeReadVarRequest (pduRef : UInt16) (addrs : List S7AnyAddress) : Res Bytes := do
  let n := addrs.length
  if n > maxReadVarItems then
    .fail (Sentinel.outOfRange.wrapped s!"{n} items, at most {maxReadVarItems}")
  else
    let items ← addrs.mapM encodeS7Any
    encodeMessage rosctrJob pduRef ([funcReadVar, UInt8.ofNat n] ++ items.flatten) []

/-- One result of a Read Var answer; `data` is the payload of a successful item. -/
structure ReadVarItem where
  returnCode : UInt8
  rawTransportSize : UInt8
  rawLength : UInt16
  data : Bytes
  deriving Repr, DecidableEq

/-- The payload bytes that the length field of an answer item stands for: it counts bits for BIT,
    BYTE/WORD/DWORD and INTEGER, and bytes for DINTEGER, REAL and OCTET STRING. -/
def normalizeResponseDataLength (transportSize : UInt8) (rawLength : UInt16) : Res Nat :=
  if transportSize = dataTransportSizeBit ∨ transportSize = dataTransportSizeByte ∨
      transportSize = dataTransportSizeInt then
    .ok ((rawLength.toNat + 7) / 8)
  else if transportSize = dataTransportSizeDInt ∨ transportSize = dataTransportSizeReal ∨
      transportSize = dataTransportSizeOctet then
    .ok rawLength.toNat
  else
    .fail (.s7 { message := "unknown response transport size 0x" ++ hexByte transportSize })

def truncatedItem (s : Sentinel) (offset : Nat) : GoError :=
  .wrap (s!"read response item at offset {offset}: " ++ s.text) (.sentinel s)

/-- The offset after the payload of `byteLen` bytes that ends at `next`: an odd payload is followed by a
    fill byte, which only the last item may leave out. -/
def skipFill (data : Bytes) (offset next byteLen : Nat) (isLastItem : Bool) : Res Nat :=
  if byteLen % 2 ≠ 0 then
    if next ≥ data.length ∧ !isLastItem then .fail (truncatedItem .truncatedItemPayload offset)
    else if next < data.length then .ok (next + 1)
    else .ok next
  else .ok next

/-- The item at `offset` and the offset of the next one. -/
def decodeReadResponseItem (data : Bytes) (offset : Nat) (isLastItem : Bool) : Res (ReadVarItem × Nat) := do
  if offset + 4 > data.length then
    .fail (truncatedItem .truncatedItemHeader offset)
  else
    let retCode ← indexAt data offset
    let transportSize ← indexAt data (offset + 1)
    let rawLength ← wordAt data (offset + 2)
    let item : ReadVarItem := ⟨retCode, transportSize, rawLength, []⟩
    if retCode ≠ retCodeSuccess then
      -- A refused item with transport size 0 has no payload, whatever its length field says.
      if transportSize = 0x00 ∨ rawLength = 0 then
        pure (item, offset + 4)
      else
        let byteLen ← normalizeResponseDataLength transportSize rawLength
        if offset + 4 + byteLen > data.length then
          .fail (truncatedItem .truncatedItemPayload offset)
        else
          let next ← skipFill data offset (offset + 4 + byteLen) byteLen isLastItem
          pure (item, next)
    else
      let byteLen ← normalizeResponseDataLength transportSize rawLength
      if offset + 4 + byteLen > data.length then
        .fail (truncatedItem .truncatedItemPayload offset)
      else
        let payload ← sliceOf data (offset + 4) (offset + 4 + byteLen)
        let next ← skipFill data offset (offset + 4 + byteLen) byteLen isLastItem
        pure ({ item with data := payload }, next)

/-- The loop of `ParseReadVarResponse`: the `left` items from `offset` on. -/
def readResponseItems (data : Bytes) : (left offset : Nat) → Res (List ReadVarItem)
  | 0, _ => pure []
  | left + 1, offset => do
    let (item, next) ← decodeReadResponseItem data offset (left == 0)
    let items ← readResponseItems data left next
    pure (item :: items)

def parseReadVarResponse (param data : Bytes) : Res (List ReadVarItem) := do
  if param.length < 2 then
    .fail (.s7 { message := "read response param too short" })
  else if (← indexAt param 0) ≠ funcReadVar then
    .fail (.s7 { message := "not a read var response" })
  else
    let itemCount ← indexAt param 1
    readResponseItems data itemCount.toNat 0

/-! ### Write Var -/

def encodeWriteVarRequest (pduRef : UInt16) (addr : S7AnyAddress) (value : Bytes) : Res Bytes := do
  let bits := value.length * 8
  if bits > 65535 then
    .fail (Sentinel.outOfRange.wrapped s!"write of {value.length} bytes, at most {maxWriteVarBytes}")
  else
    let item ← encodeS7Any addr
    let data := [retCodeSuccess, 0x04] ++ putUint16 (UInt16.ofNat bits) ++ value
    let data := if data.length % 2 ≠ 0 then data ++ [0x00] else data
    encodeMessage rosctrJob pduRef ([funcWriteVar, 1] ++ item) data

def parseWriteVarResponseCodes (param data : Bytes) : Res Bytes := do
  if param.length < 2 then
    .fail (.s7 { message := "write response param too short" })
  else if (← indexAt param 0) ≠ funcWriteVar then
    .fail (.s7 { message := "not a write var response" })
  else
    let n := (← indexAt param 1).toNat
    if n = 0 ∨ data.length < n then
      .fail (.s7 { message := s!"write response: {data.length} item codes for {n} items" })
    else
      sliceOf data 0 n

/-- The loop of `ParseWriteVarResponse` over the codes from index `i` on. -/
def firstItemError (count : Nat) : (i : Nat) → (codes : Bytes) → Option GoError
  | _, [] => none
  | i, c :: codes =>
    match returnCodeError c with
    | some err =>
      if count = 1 then some err
      else some (.wrap (s!"write item {i} of {count}: " ++ err.error) err)
    | none => firstItemError count (i + 1) codes

/-- Succeeds only when every item did; otherwise the error of the first item that did not. -/
def parseWriteVarResponse (param data : Bytes) : Res Unit := do
  let codes ← parseWriteVarResponseCodes param data
  match firstItemError codes.length 0 codes with
  | some err => .fail err
  | none => pure ()

/-! ### Bits -/

/-- A single-bit address. -/
structure S7AnyBitAddress where
  area : UInt8
  dbNumber : Int
  byteOffset : Int
  bitOffset : Int
  deriving Repr, DecidableEq

/-- One element of transport size BIT, whose start address counts bits. -/
def encodeS7AnyBit (addr : S7AnyBitAddress) : Res Bytes :=
  if addr.dbNumber < 0 ∨ addr.dbNumber > maxS7AnyDBNumber then
    .fail (Sentinel.outOfRange.wrapped s!"DB number {addr.dbNumber} not in 0..{maxS7AnyDBNumber}")
  else if addr.byteOffset < 0 ∨ addr.byteOffset > maxS7AnyByteOffset then
    .fail (Sentinel.outOfRange.wrapped s!"byte offset {addr.byteOffset} not in 0..{maxS7AnyByteOffset}")
  else if addr.bitOffset < 0 ∨ addr.bitOffset > 7 then
    .fail (Sentinel.outOfRange.wrapped s!"bit offset {addr.bitOffset} not in 0..7")
  else
    .ok (putS7Any transportSizeBit 1 (UInt16.ofNat addr.dbNumber.toNat) addr.area
      (UInt32.ofNat addr.byteOffset.toNat <<< 3 ||| UInt32.ofNat addr.bitOffset.toNat))

def validateS7AnyBitAddress (addr : S7AnyBitAddress) : Res Unit := do
  let _ ← encodeS7AnyBit addr
  pure ()

/-- The area codes that the codec knows. -/
def validateArea (area : UInt8) : Res Unit :=
  if [0x01, areaInputs, areaOutputs, areaMerkers, areaDB, 0x85, 0x86, 0x87, areaCounter, areaTimer, 30, 31, 0x80, 0x03,
      0x05, 0x06, 0x07].contains area then .ok ()
  else .fail (.s7 { message := "unsupported area code 0x" ++ hexByte area })

def encodeReadVarBitRequest (pduRef : UInt16) (addr : S7AnyBitAddress) : Res Bytes := do
  let item ← encodeS7AnyBit addr
  encodeMessage rosctrJob pduRef ([funcReadVar, 1] ++ item) []

/-- The data section is a BIT item of one bit, padded to an even number of bytes. -/
def encodeWriteVarBitRequest (pduRef : UInt16) (addr : S7AnyBitAddress) (value : Bool) : Res Bytes := do
  let item ← encodeS7AnyBit addr
  let payload : UInt8 := if value then 1 else 0
  encodeMessage rosctrJob pduRef ([funcWriteVar, 1] ++ item) [0x00, dataTransportSizeBit, 0x00, 0x01, payload, 0x00]

/-- The bit of a successful item of one bit. -/
def decodeAsBit (item : ReadVarItem) : Res Bool := do
  if item.returnCode ≠ retCodeSuccess then
    .fail (.s7 { message := "item not success, cannot decode" })
  else if item.rawTransportSize ≠ dataTransportSizeBit then
    .fail (.s7 { message := "expected BIT response transport size, got 0x" ++ hexByte item.rawTransportSize })
  else
    let byteLen := (item.rawLength.toNat + 7) / 8
    if byteLen ≠ 1 ∨ item.data.length < 1 then
      .fail (.s7 { message :=
        s!"bit response payload length invalid: normalized={byteLen} data={item.data.length}" })
    else
      let b ← indexAt item.data 0
      pure (b &&& 0x01 != 0)

end S7Comm
