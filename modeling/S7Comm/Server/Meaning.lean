import S7Comm.Server.Session

/-! What the items of a job stand for, stated on the memory as a whole: the bytes an item reads, the change it
    stores, and what its return code may depend on. The session decodes, checks and applies items one by
    one; its theorems compare it with these. -/

namespace S7Comm
open Go

namespace VarSpec

/-- The region an S7ANY item addresses. -/
def key (spec : VarSpec) : AreaKey := { area := spec.area, db := if spec.area = areaDB then spec.dbNumber else 0 }

def isBit (spec : VarSpec) : Bool := spec.transportSize == transportSizeBit

/-- The first byte of the item: timers and counters are numbered by element, everything else by bit. -/
def byteStart (spec : VarSpec) : Nat :=
  if Area.timerOrCounter spec.area then 2 * spec.startBit.toNat else spec.startBit.toNat / 8

def byteCount (spec : VarSpec) : Nat := elementSize spec.transportSize * spec.count.toNat

/-- The bit of a BIT item in its byte. -/
def bitIndex (spec : VarSpec) : Nat := spec.startBit.toNat % 8

end VarSpec

/-! ### Reading -/

/-- The memory bytes an S7ANY item addresses: for a BIT item one byte with the addressed bit. -/
def addressedBytes (mem : Memory) (spec : VarSpec) : Bytes :=
  match mem.regions spec.key with
  | none => []
  | some reg =>
    if spec.isBit then [if (reg.data.getD spec.byteStart 0).toNat.testBit spec.bitIndex then 1 else 0]
    else (reg.data.drop spec.byteStart).take spec.byteCount

/-- The memory bytes of one DBREAD range. -/
def rangeBytes (mem : Memory) (r : DBReadArea) : Bytes :=
  match mem.regions { area := areaDB, db := r.dbNumber } with
  | none => []
  | some reg => (reg.data.drop r.start.toNat).take r.length.toNat

/-- The payload of a DBREAD item: per range, 0xFF and its bytes. -/
def rangesBytes (mem : Memory) (ranges : List DBReadArea) : Bytes :=
  ranges.flatMap fun r => retCodeSuccess :: rangeBytes mem r

/-- The payload of a readable item. -/
def itemBytes (mem : Memory) (spec : VarSpec) (ranges : Option (List DBReadArea)) : Bytes :=
  if spec.syntaxID = syntaxIDDBRead then rangesBytes mem (ranges.getD []) else addressedBytes mem spec

/-- The result the session computes for one item of a Read Var job. -/
def itemResult (mem : Memory) (spec : VarSpec) (ranges : Option (List DBReadArea)) : Res ReadVarResult :=
  if spec.syntaxID = syntaxIDDBRead then dbRead mem (ranges.getD [])
  else
    match resolve mem spec with
    | .error code => pure { returnCode := code }
    | .ok t => readResult t

/-- The bytes the results take in an answer. -/
def readVarResultsSize : List ReadVarResult → Nat
  | [] => 0
  | item :: items => readVarResultSize item items.isEmpty + readVarResultsSize items

/-! ### Writing -/

/-- The sizes and the read-only flags of the regions. -/
abbrev Shape : Type := AreaKey → Option (Nat × Bool)

def Memory.shape (mem : Memory) : Shape := fun key => (mem.regions key).map fun reg => (reg.data.length, reg.readOnly)

/-- The return code of writing `n` bytes to an item. -/
def writeCode (shape : Shape) (spec : VarSpec) (n : Nat) : UInt8 :=
  if spec.syntaxID ≠ syntaxIDS7Any then retCodeAddressFault
  else
    match keyOf spec.area spec.dbNumber.toNat with
    | .ok key =>
      match shape key with
      | none => retCodeNotAvailable
      | some (len, readOnly) =>
        match locate spec len with
        | .error code => code
        | .ok span =>
          if n ≠ span.size then retCodeDataSizeFault
          else if readOnly ∨ Area.timerOrCounter spec.area then retCodeAccessFault
          else retCodeSuccess
    | _ => retCodeNotAvailable

/-- The return codes of a job. -/
def writeCodes (shape : Shape) (specs : List VarSpec) (items : List WriteVarData) : Bytes :=
  List.zipWith (fun spec item => writeCode shape spec item.data.length) specs items

/-- The bytes of a region after an item is stored: a BIT item changes one bit of one byte, any other item its
    span. -/
def storeBytes (spec : VarSpec) (payload old : Bytes) : Bytes :=
  if spec.isBit then old.modify spec.byteStart fun b => withBit b spec.bitIndex ((payload.headD 0).toNat % 2 == 1)
  else overwrite old spec.byteStart payload

def storeItem (mem : Memory) (spec : VarSpec) (payload : Bytes) : Memory :=
  match mem.regions spec.key with
  | none => mem
  | some reg => mem.set spec.key { reg with data := storeBytes spec payload reg.data }

/-- The items of a job that a memory of this shape takes. -/
def acceptedItems (shape : Shape) (specs : List VarSpec) (items : List WriteVarData) : List (VarSpec × WriteVarData) :=
  (specs.zip items).filter fun p => writeCode shape p.1 p.2.data.length == retCodeSuccess

/-- The items of a job stored from left to right. -/
def storeItems (mem : Memory) (pairs : List (VarSpec × WriteVarData)) : Memory :=
  pairs.foldl (fun m p => storeItem m p.1 p.2.data) mem

/-! ### Bytes -/

/-- A byte of a region. -/
def Memory.byteAt (mem : Memory) (key : AreaKey) (i : Nat) : Option UInt8 :=
  (mem.regions key).bind fun reg => reg.data[i]?

/-- A bit of a byte of a region. -/
def Memory.bitAt (mem : Memory) (key : AreaKey) (i j : Nat) : Option Bool :=
  (mem.byteAt key i).map fun b => b.toNat.testBit j

/-- The memory with `data` stored from byte `start` of a region on. -/
def storeAt (mem : Memory) (key : AreaKey) (start : Nat) (data : Bytes) : Memory :=
  match mem.regions key with
  | none => mem
  | some reg => mem.set key { reg with data := overwrite reg.data start data }

end S7Comm
