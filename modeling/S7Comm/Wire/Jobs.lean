import S7Comm.Wire.Vars

/-! The server side of the codec (`wire/pdu_server.go`): decoders for the jobs a client sends and encoders
    for the Ack-Data answers. -/

namespace S7Comm
open Go

/-! ### Setup Communication -/

structure SetupCommRequest where
  maxAmqCalling : Nat
  maxAmqCalled : Nat
  pduSize : Nat
  deriving Repr, DecidableEq

def parseSetupCommRequest (param : Bytes) : Res SetupCommRequest := do
  if param.length < 8 then
    .fail (Sentinel.malformedRequest.wrapped s!"setup communication parameter {param.length} bytes, need 8")
  else
    let fn ← indexAt param 0
    if fn ≠ funcSetupComm then
      .fail (Sentinel.malformedRequest.wrapped ("function 0x" ++ hexByte fn ++ " is not setup communication"))
    else
      let calling ← wordAt param 2
      let called ← wordAt param 4
      let size ← wordAt param 6
      pure ⟨calling.toNat, called.toNat, size.toNat⟩

def encodeSetupCommResponse (pduRef : UInt16) (maxAmqCalling maxAmqCalled pduSize : Int) : Res Bytes := do
  let calling ← checkedUint16 "max AmQ calling" maxAmqCalling
  let called ← checkedUint16 "max AmQ called" maxAmqCalled
  let size ← checkedUint16 "PDU size" pduSize
  encodeAckData pduRef 0 0 ([funcSetupComm, 0] ++ putUint16 calling ++ putUint16 called ++ putUint16 size) []

/-! ### Item specifications -/

/-- One item of a Read Var or Write Var job. Only an S7ANY item fills the address fields. -/
structure VarSpec where
  syntaxID : UInt8 := 0
  transportSize : UInt8 := 0
  count : UInt16 := 0
  dbNumber : UInt16 := 0
  area : UInt8 := 0
  startBit : UInt32 := 0
  deriving Repr, DecidableEq

/-- One data block range of a DBREAD item: up to 255 bytes of one DB from a byte offset. -/
structure DBReadArea where
  length : UInt8
  dbNumber : UInt16
  start : UInt16
  deriving Repr, DecidableEq

def dbReadAreaSize : Nat := 5

/-- The loop of `parseDBRead`: the `left` ranges from range `i` on. -/
def dbReadAreas (b : Bytes) : (left i : Nat) → Res (List DBReadArea)
  | 0, _ => pure []
  | left + 1, i => do
    let r ← sliceOf b (4 + i * dbReadAreaSize) b.length
    let length ← indexAt r 0
    let dbNumber ← wordAt r 1
    let start ← wordAt r 3
    let areas ← dbReadAreas b left (i + 1)
    pure (⟨length, dbNumber, start⟩ :: areas)

/-- The ranges of a DBREAD item, which `b` is from its specification type on. -/
def parseDBRead (b : Bytes) : Res (List DBReadArea) := do
  if b.length < 4 then
    .fail (.text s!"DBREAD item of {b.length} bytes")
  else
    let n := (← indexAt b 3).toNat
    if n = 0 ∨ b.length ≠ 4 + n * dbReadAreaSize then
      .fail (.text s!"DBREAD item of {b.length} bytes for {n} ranges")
    else
      dbReadAreas b n 0

def varSpecSize : Nat := 12

/-- The address fields of an S7ANY item of 12 bytes. -/
def parseS7Any (b : Bytes) : Res VarSpec := do
  let transportSize ← indexAt b 3
  let count ← wordAt b 4
  let dbNumber ← wordAt b 6
  let area ← indexAt b 8
  let startBit := be24 (← indexAt b 9) (← indexAt b 10) (← indexAt b 11)
  pure { syntaxID := syntaxIDS7Any, transportSize, count, dbNumber, area, startBit }

/-- The syntax ID of the item at `off` with length byte `len`; an item without one has syntax 0. -/
def itemSyntaxID (param : Bytes) (off : Nat) (len : UInt8) : Res UInt8 :=
  if len ≥ 1 then indexAt param (off + 2) else pure 0

/-- The body of the item loop: item `i`, which starts at `off`, and the offset where it ends. -/
def parseVarSpec (param : Bytes) (i off : Nat) : Res (VarSpec × Nat) := do
  if off + 2 > param.length then
    .fail (Sentinel.malformedRequest.wrapped s!"item {i} truncated")
  else
    let specType ← indexAt param off
    if specType ≠ 0x12 then
      .fail (Sentinel.malformedRequest.wrapped (s!"item {i} specification type 0x" ++ hexByte specType))
    else
      let len ← indexAt param (off + 1)
      let stop := off + 2 + len.toNat
      if stop > param.length then
        .fail (Sentinel.malformedRequest.wrapped s!"item {i} length {len} overruns the parameter")
      else
        let syntaxID ← itemSyntaxID param off len
        if syntaxID = syntaxIDS7Any then
          if stop - off ≠ varSpecSize then
            .fail (Sentinel.malformedRequest.wrapped s!"item {i} S7ANY length {len}")
          else
            let spec ← parseS7Any (← sliceOf param off stop)
            pure (spec, stop)
        else if syntaxID = syntaxIDDBRead then
          match parseDBRead (← sliceOf param off stop) with
          | .ok _ => pure ({ syntaxID }, stop)
          | .fail err =>
            .fail (.wrap (Sentinel.malformedRequest.text ++ s!": item {i}: " ++ err.error)
              (.join (.sentinel .malformedRequest) err))
          | .panic => .panic
        else
          pure ({ syntaxID }, stop)

/-- The item loop: the `left` items from item `i` at `off` on, and the offset after the last. -/
def varSpecs (param : Bytes) : (left i off : Nat) → Res (List VarSpec × Nat)
  | 0, _, off => pure ([], off)
  | left + 1, i, off => do
    let (spec, stop) ← parseVarSpec param i off
    let (specs, last) ← varSpecs param left (i + 1) stop
    pure (spec :: specs, last)

def parseVarSpecs (param : Bytes) (fn : UInt8) : Res (List VarSpec) := do
  if param.length < 2 then
    .fail (Sentinel.malformedRequest.wrapped s!"parameter {param.length} bytes, need 2")
  else
    let got ← indexAt param 0
    if got ≠ fn then
      .fail (Sentinel.malformedRequest.wrapped ("function 0x" ++ hexByte got ++ ", want 0x" ++ hexByte fn))
    else
      let n := (← indexAt param 1).toNat
      if n = 0 then
        .fail (Sentinel.malformedRequest.wrapped "no items")
      else
        let (specs, off) ← varSpecs param n 0 2
        if off ≠ param.length then
          .fail (Sentinel.malformedRequest.wrapped s!"{param.length - off} bytes after the items")
        else
          pure specs

def parseReadVarRequest (param : Bytes) : Res (List VarSpec) := parseVarSpecs param funcReadVar

/-- The ranges of the item at `param[off:stop]`; nil ranges are `none`. The error of `parseDBRead` is
    dropped. -/
def itemRanges (param : Bytes) (spec : VarSpec) (off stop : Nat) : Res (Option (List DBReadArea)) := do
  if spec.syntaxID = syntaxIDDBRead then
    match parseDBRead (← sliceOf param off stop) with
    | .ok ranges => pure (some ranges)
    | .fail _ => pure none
    | .panic => .panic
  else
    pure none

/-- The second walk of `ParseReadVarDBRead` over the items, from `off` on. -/
def dbReadRanges (param : Bytes) : (specs : List VarSpec) → (off : Nat) → Res (List (Option (List DBReadArea)))
  | [], _ => pure []
  | spec :: specs, off => do
    let stop := off + 2 + (← indexAt param (off + 1)).toNat
    let ranges ← itemRanges param spec off stop
    let rest ← dbReadRanges param specs stop
    pure (ranges :: rest)

/-- Per item of a Read Var job, the ranges of a DBREAD item. -/
def parseReadVarDBRead (param : Bytes) : Res (List (Option (List DBReadArea))) := do
  let specs ← parseVarSpecs param funcReadVar
  dbReadRanges param specs 2

/-! ### Write Var data -/

/-- One data item of a Write Var job. -/
structure WriteVarData where
  returnCode : UInt8
  transportSize : UInt8
  rawLength : UInt16
  data : Bytes
  deriving Repr, DecidableEq

/-- The payload length of a Write Var data item. -/
def writeDataBytes (transport : UInt8) (raw : UInt16) : Res Nat :=
  if transport = dataTransportSizeBit ∨ transport = dataTransportSizeDInt ∨
      transport = dataTransportSizeReal ∨ transport = dataTransportSizeOctet then
    .ok raw.toNat
  else if transport = dataTransportSizeByte ∨ transport = dataTransportSizeInt then
    if raw % 8 ≠ 0 then .fail (Sentinel.malformedRequest.wrapped s!"length {raw} bits is not whole bytes")
    else .ok (raw.toNat / 8)
  else .fail (Sentinel.malformedRequest.wrapped ("data transport size 0x" ++ hexByte transport))

/-- The payload length of data item `i`. -/
def itemDataBytes (i : Nat) (transport : UInt8) (raw : UInt16) : Res Nat :=
  match writeDataBytes transport raw with
  | .ok n => pure n
  | .fail err => .fail (.wrap (s!"data item {i}: " ++ err.error) err)
  | .panic => .panic

/-- The data items from item `i` at `off` on, one for each of the `left` specifications, and the offset
    after the last. -/
def writeDataItems (data : Bytes) : (left i off : Nat) → Res (List WriteVarData × Nat)
  | 0, _, off => pure ([], off)
  | left + 1, i, off => do
    if off + 4 > data.length then
      .fail (Sentinel.malformedRequest.wrapped s!"data item {i} header truncated")
    else
      let returnCode ← indexAt data off
      let transportSize ← indexAt data (off + 1)
      let rawLength ← wordAt data (off + 2)
      let n ← itemDataBytes i transportSize rawLength
      let start := off + 4
      if start + n > data.length then
        .fail (Sentinel.malformedRequest.wrapped s!"data item {i} payload truncated")
      else
        let payload ← sliceOf data start (start + n)
        -- A fill byte stands before the next item.
        let next := if n % 2 ≠ 0 ∧ left ≠ 0 then start + n + 1 else start + n
        let (items, last) ← writeDataItems data left (i + 1) next
        pure (⟨returnCode, transportSize, rawLength, payload⟩ :: items, last)

def parseWriteVarRequest (param data : Bytes) : Res (List VarSpec × List WriteVarData) := do
  let specs ← parseVarSpecs param funcWriteVar
  let (items, off) ← writeDataItems data specs.length 0 0
  let extra : Int := data.length - off
  if off > data.length ∨ extra > 1 then
    .fail (Sentinel.malformedRequest.wrapped s!"{extra} bytes after the data items")
  else
    pure (specs, items)

/-! ### Answers -/

/-- One item of a Read Var answer. -/
structure ReadVarResult where
  returnCode : UInt8
  transportSize : UInt8 := 0
  rawLength : UInt16 := 0
  data : Bytes := []
  deriving Repr, DecidableEq

/-- The bytes `item` takes in a Read Var answer, with the fill byte before a following item. -/
def readVarResultSize (item : ReadVarResult) (last : Bool) : Nat :=
  let n := 4 + item.data.length
  if !last ∧ item.data.length % 2 ≠ 0 then n + 1 else n

/-- The data section of a Read Var answer. -/
def readVarResultBytes : List ReadVarResult → Bytes
  | [] => []
  | item :: items =>
    [item.returnCode, item.transportSize] ++ putUint16 item.rawLength ++ item.data ++
      (if items ≠ [] ∧ item.data.length % 2 ≠ 0 then [0x00] else []) ++ readVarResultBytes items

def encodeReadVarResponse (pduRef : UInt16) (items : List ReadVarResult) : Res Bytes :=
  let n := items.length
  if n > 255 then .fail (Sentinel.outOfRange.wrapped s!"{n} items, at most {maxReadVarItems}")
  else encodeAckData pduRef 0 0 [funcReadVar, UInt8.ofNat n] (readVarResultBytes items)

def encodeWriteVarResponse (pduRef : UInt16) (codes : Bytes) : Res Bytes :=
  let n := codes.length
  if n > 255 then .fail (Sentinel.outOfRange.wrapped s!"{n} items, at most {maxReadVarItems}")
  else encodeAckData pduRef 0 0 [funcWriteVar, UInt8.ofNat n] codes

end S7Comm
