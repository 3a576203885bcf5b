import S7Comm.Lib.Series
import S7Comm.Wire.Jobs

/-! The sections of Read Var and Write Var as a grammar: what an item is, and the bytes it stands for. Nothing here
    computes an offset; the decoders of `Wire/Vars` and `Wire/Jobs` are compared with it. -/

namespace S7Comm
open Go

/-! ### Item specifications -/

/-- A range of a DBREAD item: length, DB number and start. -/
def DBReadArea.bytes (r : DBReadArea) : Bytes := [r.length] ++ putUint16 r.dbNumber ++ putUint16 r.start

/-- The DBREAD item of the ranges: specification type, length, syntax, number of ranges and the ranges. -/
def dbReadItem (ranges : List DBReadArea) : Bytes :=
  [0x12, UInt8.ofNat (2 + ranges.length * dbReadAreaSize), syntaxIDDBRead, UInt8.ofNat ranges.length] ++
    ranges.flatMap DBReadArea.bytes

/-- A well-formed item of a job. The length byte leaves room for 50 ranges; an item of another syntax may have any
    body, also none. -/
inductive JobItem where
  | s7any (transport : UInt8) (count dbNumber : UInt16) (area : UInt8) (startBit : UInt32)
      (lt : startBit.toNat < 2 ^ 24)
  | dbRead (ranges : List DBReadArea) (pos : 0 < ranges.length) (le : ranges.length ≤ 50)
  | other (body : Bytes) (le : body.length ≤ 255) (ne_any : body.headD 0 ≠ syntaxIDS7Any)
      (ne_dbRead : body.headD 0 ≠ syntaxIDDBRead)

namespace JobItem

def bytes : JobItem → Bytes
  | .s7any transport count dbNumber area startBit _ => putS7Any transport count dbNumber area startBit
  | .dbRead ranges _ _ => dbReadItem ranges
  | .other body _ _ _ => [0x12, UInt8.ofNat body.length] ++ body

/-- What `parseVarSpecs` returns for the item. -/
def spec : JobItem → VarSpec
  | .s7any transportSize count dbNumber area startBit _ =>
    { syntaxID := syntaxIDS7Any, transportSize, count, dbNumber, area, startBit }
  | .dbRead _ _ _ => { syntaxID := syntaxIDDBRead }
  | .other body _ _ _ => { syntaxID := body.headD 0 }

/-- What `ParseReadVarDBRead` returns for the item. -/
def ranges : JobItem → Option (List DBReadArea)
  | .dbRead ranges _ _ => some ranges
  | .s7any .. | .other .. => none

end JobItem

/-- The parameter section of a job: the function code, the number of items and the items. -/
def jobParam (fn : UInt8) (items : List JobItem) : Bytes :=
  [fn, UInt8.ofNat items.length] ++ items.flatMap JobItem.bytes

/-! ### Data items -/

/-- The header of a data item. -/
def dataHeader (returnCode transportSize : UInt8) (rawLength : UInt16) : Bytes :=
  [returnCode, transportSize] ++ putUint16 rawLength

/-- The bytes of a data item with one fill byte, of any value, after an odd payload that another item follows. -/
def DataItem (last : Bool) (returnCode transportSize : UInt8) (rawLength : UInt16) (payload e : Bytes) : Prop :=
  ∃ fill : Bytes, fill.length = (if last then 0 else payload.length % 2) ∧
    e = dataHeader returnCode transportSize rawLength ++ (payload ++ fill)

/-- The length field of a written item counts bytes, or bits for BYTE and INTEGER. -/
def WriteVarData.Sized (item : WriteVarData) : Prop :=
  (item.transportSize ∈ [dataTransportSizeBit, dataTransportSizeDInt, dataTransportSizeReal, dataTransportSizeOctet] ∧
    item.rawLength.toNat = item.data.length) ∨
  (item.transportSize ∈ [dataTransportSizeByte, dataTransportSizeInt] ∧
    item.rawLength.toNat = 8 * item.data.length)

/-- A well-formed data item of a Write Var job, and its bytes. -/
def WrittenItem (last : Bool) (item : WriteVarData) (e : Bytes) : Prop :=
  item.Sized ∧ DataItem last item.returnCode item.transportSize item.rawLength item.data e

/-- An item of a Read Var answer as it stands in the section. A refused item has no payload when its transport size
    or its length field is 0. -/
structure AnswerItem where
  returnCode : UInt8
  transportSize : UInt8
  rawLength : UInt16
  payload : Bytes
  sized :
    if returnCode ≠ retCodeSuccess ∧ (transportSize = 0 ∨ rawLength = 0) then payload = []
    else normalizeResponseDataLength transportSize rawLength = .ok payload.length

namespace AnswerItem

/-- The result that the item gives: the payload of a refused item is skipped. -/
def result (item : AnswerItem) : ReadVarItem :=
  ⟨item.returnCode, item.transportSize, item.rawLength, if item.returnCode = retCodeSuccess then item.payload else []⟩

/-- The bytes of the item. -/
def Stands (last : Bool) (item : AnswerItem) (e : Bytes) : Prop :=
  DataItem last item.returnCode item.transportSize item.rawLength item.payload e

end AnswerItem

/-- The fill bytes that may end a section: one, when the last payload is odd. -/
def endFill (items : List AnswerItem) : Nat :=
  match items.getLast? with
  | some item => item.payload.length % 2
  | none => 0

/-- The section is the items and nothing after them but the fill byte of the last. -/
def AnswerSection (items : List AnswerItem) (data : Bytes) : Prop :=
  ∃ e fill, Series AnswerItem.Stands items e ∧ fill.length ≤ endFill items ∧ data = e ++ fill

/-- The section is `n` items, and after them and the fill byte of the last there is at least one byte more. -/
def Surplus (n : Nat) (data : Bytes) : Prop :=
  ∃ items e rest, items.length = n ∧ Series AnswerItem.Stands items e ∧ endFill items < rest.length ∧ data = e ++ rest

end S7Comm
