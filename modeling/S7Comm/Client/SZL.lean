import Mathlib.Data.List.DropRight
import S7Comm.Client.Userdata

/-! SZL lists (`client/szl.go`): reading one, splitting it into records, and what the records say. A Go string is the
    bytes it holds; a call that returns a value together with an error returns both here. -/

namespace S7Comm
open Go

/-! ### Records -/

/-- The loop of `szlRecords` from `off` on, with `left` records to go until the declared count. -/
def szlRecordsFrom (data : Bytes) (size : Nat) : (left : Nat) → (off : Nat) → Res (List Bytes)
  | 0, _ => pure []
  | left + 1, off => do
    if off + size ≤ data.length then
      let r ← sliceOf data off (off + size)
      let recs ← szlRecordsFrom data size left (off + size)
      pure (r :: recs)
    else
      pure []

/-- The records of a list: record length, record count, records. A count past the data is cut to what arrived. -/
def szlRecords (data : Bytes) : Res (List Bytes) := do
  if data.length < 4 then
    .fail (.text s!"SZL list header: {data.length} bytes")
  else
    let size := (← wordAt data 0).toNat
    let count := (← wordAt data 2).toNat
    if size = 0 then .fail (.text "SZL record length 0")
    else szlRecordsFrom data size count 4

/-- The bytes without the zeros and blanks at their end. -/
def trimString (data : Bytes) : Bytes := data.rdropWhile fun b => b == 0x00 || b == 0x20

/-! ### Device information -/

/-- What a device says of itself. Two fields that no call sets are left out. -/
structure DeviceInfo where
  orderNumber : Bytes := []
  serialNumber : Bytes := []
  moduleName : Bytes := []
  plantID : Bytes := []
  copyright : Bytes := []
  moduleType : Bytes := []
  fwVersion : String := ""
  cpuType : Bytes := []
  systemName : Bytes := []
  memoryCardSerial : Bytes := []
  deriving Repr, DecidableEq

def moduleIDRecordSize : Nat := 28
def componentIDRecordSize : Nat := 34

/-- Index 1 of the module identification is the order number, index 7 the firmware: 'V' and three version bytes. -/
def applyModuleIDRecord (r : Bytes) : Eff DeviceInfo GoError Unit := do
  if r.length < moduleIDRecordSize then
    Eff.fail (.text s!"module ID record of {r.length} bytes")
  else
    let index ← wordAt r 0
    if index = 0x0001 then
      let text ← sliceOf r 2 22
      Eff.modify fun info => { info with orderNumber := trimString text }
    else if index = 0x0007 then
      let mark ← indexAt r 24
      if mark = 0x56 then
        let major ← indexAt r 25
        let minor ← indexAt r 26
        let patch ← indexAt r 27
        Eff.modify fun info => { info with fwVersion := s!"V{major}.{minor}.{patch}" }

/-- The loop over the records of a list; a record changes the information before the next one is looked at. -/
def applyRecords (apply : Bytes → Eff DeviceInfo GoError Unit) : List Bytes → Eff DeviceInfo GoError Unit
  | [] => pure ()
  | r :: recs => do
    apply r
    applyRecords apply recs

def applyModuleID (data : Bytes) : Eff DeviceInfo GoError Unit := do
  let recs ← szlRecords data
  applyRecords applyModuleIDRecord recs

def upperASCII (b : UInt8) : UInt8 := if 0x61 ≤ b ∧ b ≤ 0x7A then b - 0x20 else b

/-- Whether a text in capitals starts with "CPU". Only ASCII letters have these capitals. -/
def namesCPU (text : Bytes) : Bool := (text.take 3).map upperASCII == [0x43, 0x50, 0x55]

/-- The field that a text of the component identification belongs to. -/
def setComponent (index : UInt16) (text : Bytes) (info : DeviceInfo) : DeviceInfo :=
  if index = 0x0001 then { info with systemName := text }
  else if index = 0x0002 then { info with moduleName := text }
  else if index = 0x0003 then { info with plantID := text }
  else if index = 0x0004 then { info with copyright := text }
  else if index = 0x0005 then { info with serialNumber := text }
  else if index = 0x0007 then
    if namesCPU text then { info with moduleType := text, cpuType := text } else { info with moduleType := text }
  else if index = 0x0008 then { info with memoryCardSerial := text }
  else info

def applyComponentIDRecord (r : Bytes) : Eff DeviceInfo GoError Unit := do
  if r.length < componentIDRecordSize then
    Eff.fail (.text s!"component ID record of {r.length} bytes")
  else
    let text ← sliceOf r 2 34
    let index ← wordAt r 0
    Eff.modify (setComponent index (trimString text))

def applyComponentID (data : Bytes) : Eff DeviceInfo GoError Unit := do
  let recs ← szlRecords data
  applyRecords applyComponentIDRecord recs

/-! ### Diagnostic buffer -/

/-- An event. Its description, which no call sets, is left out. -/
structure DiagEntry where
  timestamp : String
  eventID : UInt16
  eventClass : UInt8
  priority : UInt8
  info1 : UInt32
  info2 : UInt32
  deriving Repr, DecidableEq

structure DiagBuffer where
  entries : List DiagEntry := []
  totalCount : Nat := 0
  deriving Repr, DecidableEq

def diagRecordSize : Nat := 20

def hexDigitLower (n : UInt8) : Char := "0123456789abcdef".toList.getD n.toNat '0'

/-- The bytes in hexadecimal, as `%x` prints them. -/
def hexBytes (b : Bytes) : String :=
  String.ofList (b.flatMap fun (x : UInt8) => [hexDigitLower (x >>> 4), hexDigitLower (x &&& 0x0F)])

def diagEntry (r : Bytes) : Res DiagEntry := do
  let eventID ← wordAt r 0
  let first ← indexAt r 0
  let priority ← indexAt r 2
  let info1 ← wordAt r 6
  let info2 ← dwordAt r 8
  let stamp ← sliceOf r 12 20
  pure ⟨hexBytes stamp, eventID, first >>> 4, priority, info1.toUInt32, info2⟩

/-- The loop of `ReadDiagBuffer`: the buffer, and an error with the buffer so far. -/
def diagRecords : List Bytes → DiagBuffer → Res (Option DiagBuffer × Option GoError)
  | [], buf => pure (some { buf with totalCount := buf.entries.length }, none)
  | r :: recs, buf => do
    if r.length < diagRecordSize then
      pure (some buf, some (.text s!"diagnostic record of {r.length} bytes"))
    else
      let entry ← diagEntry r
      diagRecords recs { buf with entries := buf.entries ++ [entry] }

/-- The part of `ReadDiagBuffer` after the read. -/
def diagBuffer (raw : Bytes) : Res (Option DiagBuffer × Option GoError) :=
  match szlRecords raw with
  | .panic => .panic
  | .fail err => pure (none, some err)
  | .ok recs => diagRecords recs {}

/-! ### Calls -/

section Calls
variable {σ : Type} (net : Net σ)

/-- The part of `readSZL` after the exchange: the list starts after SZL ID and index. -/
def szlOf (first payload : Bytes) : Res SZLResponse := do
  let resp ← parseSZLResponse first
  let data ← sliceOf payload 4 payload.length
  pure { resp with data }

/-- One SZL list, all packets of it: the list header and every record. -/
def readSZL (id index : UInt16) : ClientM σ SZLResponse := do
  let ref ← nextPDURef
  let (first, payload) ← userdata net userdataGroupCPU userdataSZL (encodeSZLRequest ref id index) ref
  szlOf first payload

def readModuleIDSZL : ClientM σ Bytes := do
  let resp ← readSZL net szlModuleID 0
  pure resp.data

def readComponentIDSZL : ClientM σ Bytes := do
  let resp ← readSZL net szlComponentID 0
  pure resp.data

/-- One half of `Identify`: a list is read and applied; an error goes to the list of errors. -/
def identifyWith (read : ClientM σ Bytes) (what : String) (apply : Bytes → Eff DeviceInfo GoError Unit)
    (info : DeviceInfo) (errs : List GoError) : ClientM σ (DeviceInfo × List GoError) := do
  match ← Eff.attempt read with
  | .error err => pure (info, errs ++ [err])
  | .ok raw =>
    match apply raw info with
    | (.ok (), info) => pure (info, errs)
    | (.fail err, info) => pure (info, errs ++ [.wrap (what ++ ": " ++ err.error) err])
    | (.panic, _) => liftM (Outcome.panic : Res (DeviceInfo × List GoError))

/-- Partial information comes with an error; no information is returned when both lists fail. -/
def identify : ClientM σ (Option DeviceInfo × Option GoError) := do
  let (info, errs) ← identifyWith (readModuleIDSZL net) "module ID SZL" applyModuleID {} []
  let (info, errs) ← identifyWith (readComponentIDSZL net) "component ID SZL" applyComponentID info errs
  match errs with
  | [] => pure (some info, none)
  | [err] => pure (some info, some err)
  | err₁ :: err₂ :: _ => pure (none, some (.join err₁ err₂))

inductive CPUState where
  | unknown | run | stop | startup | hold
  deriving Repr, DecidableEq

/-- The mode in the low nibble of a mode byte. -/
def cpuStateOf (b : UInt8) : CPUState :=
  let mode := b &&& 0x0F
  if 1 ≤ mode ∧ mode ≤ 4 then .stop
  else if 5 ≤ mode ∧ mode ≤ 7 then .startup
  else if mode = 8 ∨ mode = 9 then .run
  else if mode = 10 then .hold
  else .unknown

def getCPUState : ClientM σ CPUState := do
  let resp ← readSZL net szlCPUState 0
  let recs ← szlRecords resp.data
  let refusal : ClientM σ CPUState := Eff.fail (.text "SZL 0x0424 holds no mode record")
  match recs with
  | [] => refusal
  | r :: _ =>
    if r.length < 4 then refusal
    else
      let b ← indexAt r 3
      pure (cpuStateOf b)

inductive ProtectionLevel where
  | none | read | readWrite
  deriving Repr, DecidableEq

def szlProtectionIndex : UInt16 := 0x0004

def getProtectionLevel : ClientM σ ProtectionLevel := do
  let resp ← readSZL net szlProtectionInfo szlProtectionIndex
  let recs ← szlRecords resp.data
  let refusal : ClientM σ ProtectionLevel := Eff.fail (.text "SZL 0x0232 holds no protection record")
  match recs with
  | [] => refusal
  | r :: _ =>
    if r.length < 8 then refusal
    else
      let level ← wordAt r 6
      if level = 1 then pure .none
      else if level = 2 then pure .read
      else if level = 3 then pure .readWrite
      else Eff.fail (.text s!"SZL 0x0232: unknown protection level {level}")

def readDiagBufferRaw : ClientM σ Bytes := do
  let resp ← readSZL net szlDiagBuffer 0
  pure resp.data

def readDiagBuffer : ClientM σ (Option DiagBuffer × Option GoError) := do
  match ← Eff.attempt (readDiagBufferRaw net) with
  | .error err => pure (none, some err)
  | .ok raw => diagBuffer raw

end Calls

end S7Comm
