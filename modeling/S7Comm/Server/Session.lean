import S7Comm.Server.Config
import S7Comm.Server.Memory
import S7Comm.Wire.Jobs

/-! A session of the server (`server/session.go`): it answers one S7 PDU at a time from the memory it shares
    with the other sessions, and holds the negotiated PDU size. Debug logs are left out. -/

namespace S7Comm
open Go

def errCodeNotImpl : UInt8 := 0x04
def errCodeFrames : UInt8 := 0x00

/-- The number of jobs granted in parallel. -/
def maxAmQ : Nat := 2

/-- The state a session reads and changes. -/
@[ext] structure Session where
  mem : Memory
  pduSize : Nat

/-- The value of a call whose error the caller drops; nil is `none`. -/
def orNil {α : Type} : Res α → Res (Option α)
  | .ok a => .ok (some a)
  | .fail _ => .ok none
  | .panic => .panic

/-- The function code of a job, when there is one. -/
def functionCode (param : Bytes) : Res Bytes := if param.length > 0 then sliceOf param 0 1 else pure []

/-- The answer 0x8104, with the function code of the job as parameter. -/
def notImplemented (ref : UInt16) (param : Bytes) : Res (Option Bytes) := do
  let fn ← functionCode param
  orNil (encodeAckData ref errClassApp errCodeNotImpl fn [])

/-- The user data answer with parameter error 0x8104 and item code 0x0A. -/
def userdataNotImplemented (ref : UInt16) (param : Bytes) : Res (Option Bytes) := do
  if param.length < 8 then
    notImplemented ref param
  else if (← indexAt param 0) ≠ 0x00 ∨ (← indexAt param 1) ≠ 0x01 ∨ (← indexAt param 2) ≠ 0x12 then
    notImplemented ref param
  else
    let group := (← indexAt param 5) &&& 0x3F
    let subfunc ← indexAt param 6
    let seq ← indexAt param 7
    let resp : Bytes :=
      [0x00, 0x01, 0x12, 0x08, 0x12, 0x80 ||| group, subfunc, seq, 0x00, 0x00, errClassApp, errCodeNotImpl]
    let data : Bytes := [retCodeNotAvailable, 0x00, 0x00, 0x00]
    let hdr ← orNil (encodeS7Header rosctrUserdata ref resp.length data.length)
    pure (some (hdr.getD [] ++ resp ++ data))

/-- Setup Communication: the session takes the granted size before the answer is encoded. -/
def setup (cfg : ServerConfig) (ref : UInt16) (param : Bytes) : Eff Session GoError Bytes := do
  let req ← parseSetupCommRequest param
  let size := min req.pduSize cfg.maxPDUSize
  Eff.modify fun s => { s with pduSize := size }
  encodeSetupCommResponse ref (max 1 (min req.maxAmqCalling maxAmQ) : Nat)
    (max 1 (min req.maxAmqCalled maxAmQ) : Nat) size

/-! ### Addresses -/

def transportCounter : UInt8 := 0x1C
def transportTimer : UInt8 := 0x1D

/-- The bytes of an element of a request transport size, 0 for one the server does not take. -/
def elementSize (transport : UInt8) : Nat :=
  if transport = transportSizeBit ∨ transport = transportSizeByte ∨ transport = transportSizeChar then 1
  else if transport = transportSizeWord ∨ transport = transportSizeInt ∨ transport = transportCounter ∨
      transport = transportTimer then 2
  else if transport = transportSizeDWord ∨ transport = transportSizeDInt ∨ transport = transportSizeReal then 4
  else 0

/-- Where an item lies in its region: byte offset, bit index of a BIT item, and bytes. -/
structure Span where
  start : Nat
  bit : Nat
  size : Nat
  deriving Repr, DecidableEq

/-- The checks of `resolve` once the region is found: the span of the item in a region of `len` bytes, or the
    item return code that refuses it. -/
def locate (spec : VarSpec) (len : Nat) : Except UInt8 Span :=
  let area : Area := spec.area
  let per := elementSize spec.transportSize
  if per = 0 then .error retCodeDataTypeFault
  else
    -- Timers and counters only with their own transport size, and that transport size only for them.
    let tc := spec.transportSize == transportTimer || spec.transportSize == transportCounter
    if area.timerOrCounter ≠ tc ∨ (tc ∧ spec.transportSize ≠ area) then .error retCodeAddressFault
    else
      let size := per * spec.count.toNat
      let isBit := spec.transportSize == transportSizeBit
      if size = 0 ∨ (isBit ∧ size > 1) then .error retCodeAddressFault
      else if !tc ∧ !isBit ∧ spec.startBit.toNat % 8 ≠ 0 then .error retCodeAddressFault
      else
        -- The address of a timer or counter is the element number.
        let start := if tc then 2 * spec.startBit.toNat else spec.startBit.toNat / 8
        let bit := if tc then 0 else spec.startBit.toNat % 8
        if start + size > len then .error retCodeAddressFault else .ok { start, bit, size }

/-- A decoded item address. -/
structure Target extends Span where
  key : AreaKey
  reg : Region
  isBit : Bool
  transp : UInt8
  area : Area
  deriving Repr, DecidableEq

/-- The target of an item, or the item return code that refuses it. -/
def resolve (mem : Memory) (spec : VarSpec) : Except UInt8 Target :=
  if spec.syntaxID ≠ syntaxIDS7Any then .error retCodeAddressFault
  else
    match keyOf spec.area spec.dbNumber.toNat with
    | .ok key =>
      match mem.regions key with
      | none => .error retCodeNotAvailable
      | some reg =>
        match locate spec reg.data.length with
        | .error code => .error code
        | .ok span =>
          .ok { span with
            key, reg, isBit := spec.transportSize == transportSizeBit, transp := spec.transportSize, area := spec.area }
    | _ => .error retCodeNotAvailable

/-! ### Read Var -/

/-- An item length for its 16-bit wire field. -/
def lengthField (n : Nat) : UInt16 := if n > 65535 then 65535 else UInt16.ofNat n

/-- The data transport size and the length field of a readable item of `size` bytes; the length counts
    bits for INTEGER and BYTE/WORD/DWORD and bytes for the others. -/
def readTransport (transp : UInt8) (size : Nat) : UInt8 × UInt16 :=
  if transp = transportSizeInt then (dataTransportSizeInt, lengthField (size * 8))
  else if transp = transportSizeDInt then (dataTransportSizeDInt, lengthField size)
  else if transp = transportSizeReal then (dataTransportSizeReal, lengthField size)
  else if transp = transportSizeChar ∨ transp = transportTimer ∨ transp = transportCounter then
    (dataTransportSizeOctet, lengthField size)
  else (dataTransportSizeByte, lengthField (size * 8))

def readResult (t : Target) : Res ReadVarResult := do
  let src ← sliceOf t.reg.data t.start (t.start + t.size)
  if t.transp = transportSizeBit then
    let b ← indexAt src 0
    pure {
      returnCode := retCodeSuccess
      transportSize := dataTransportSizeBit
      rawLength := 1
      data := [b >>> UInt8.ofNat t.bit &&& 0x01] }
  else
    let (transportSize, rawLength) := readTransport t.transp t.size
    pure { returnCode := retCodeSuccess, transportSize, rawLength, data := src }

/-- The loop of `dbRead`: the return code and the bytes of each range after `data`, or the code that
    refuses the whole item. -/
def dbReadData (mem : Memory) : (ranges : List DBReadArea) → (data : Bytes) → Res (Except UInt8 Bytes)
  | [], data => pure (.ok data)
  | r :: ranges, data =>
    match mem.regions { area := areaDB, db := r.dbNumber } with
    | none => pure (.error retCodeNotAvailable)
    | some reg => do
      if r.dbNumber = 0 then pure (.error retCodeNotAvailable)
      else
        let start := r.start.toNat
        let n := r.length.toNat
        if n = 0 ∨ start + n > reg.data.length then pure (.error retCodeAddressFault)
        else
          let bytes ← sliceOf reg.data start (start + n)
          dbReadData mem ranges (data ++ [retCodeSuccess] ++ bytes)

def dbRead (mem : Memory) (ranges : List DBReadArea) : Res ReadVarResult := do
  match ← dbReadData mem ranges [] with
  | .error code => pure { returnCode := code }
  | .ok data =>
    pure {
      returnCode := retCodeSuccess
      transportSize := dataTransportSizeOctet
      rawLength := lengthField data.length
      data }

/-- The item loop of `read`, with the bytes `used` so far; `none` when the answer is past the PDU. -/
def readItems (mem : Memory) (pduSize : Nat) :
    (specs : List VarSpec) → (ranges : List (Option (List DBReadArea))) → (used : Nat) →
      Res (Option (List ReadVarResult × Nat))
  | [], _, used => pure (some ([], used))
  | spec :: specs, ranges, used => do
    if spec.syntaxID = syntaxIDDBRead then
      let r ← dbRead mem ((← indexAt ranges 0).getD [])
      let used := used + 4 + r.data.length
      let used := if specs ≠ [] ∧ r.data.length % 2 ≠ 0 then used + 1 else used
      if used > pduSize then pure none
      else
        let rest ← readItems mem pduSize specs ranges.tail used
        pure (rest.map fun (results, used) => (r :: results, used))
    else
      match resolve mem spec with
      | .error code =>
        let rest ← readItems mem pduSize specs ranges.tail (used + 4)
        pure (rest.map fun (results, used) => ({ returnCode := code } :: results, used))
      | .ok t =>
        let need := if t.isBit then 5 else 4 + t.size
        let need := if specs ≠ [] ∧ need % 2 ≠ 0 then need + 1 else need
        let used := used + need
        if used > pduSize then pure none
        else
          let r ← readResult t
          let rest ← readItems mem pduSize specs ranges.tail used
          pure (rest.map fun (results, used) => (r :: results, used))

/-- Read Var: one result per item, or the refusal 0x8500 of the whole job. -/
def read (s : Session) (ref : UInt16) (param : Bytes) : Res Bytes := do
  let specs ← parseReadVarRequest param
  let ranges ← parseReadVarDBRead param
  let refusal : Res Bytes := do encodeAckData ref errClassSupplies errCodeFrames (← sliceOf param 0 1) []
  match ← readItems s.mem s.pduSize specs ranges (ackDataHeaderSize + 2) with
  | none => refusal
  | some (results, used) =>
    if used > s.pduSize then refusal else encodeReadVarResponse ref results

/-! ### Write Var -/

def writeItem (spec : VarSpec) (item : WriteVarData) : Eff Memory GoError UInt8 := do
  match resolve (← Eff.get) spec with
  | .error code => pure code
  | .ok t =>
    if item.data.length ≠ t.size then pure retCodeDataSizeFault
    else if t.reg.readOnly ∨ t.area.timerOrCounter then pure retCodeAccessFault
    else if t.isBit then
      let mask : UInt8 := 1 <<< UInt8.ofNat t.bit
      let old ← indexAt t.reg.data t.start
      let new := if (← indexAt item.data 0) &&& 0x01 ≠ 0 then old ||| mask else old &&& ~~~mask
      Eff.modify fun m => m.set t.key { t.reg with data := t.reg.data.set t.start new }
      pure retCodeSuccess
    else
      let _ ← sliceOf t.reg.data t.start t.reg.data.length
      Eff.modify fun m => m.set t.key { t.reg with data := overwrite t.reg.data t.start item.data }
      pure retCodeSuccess

/-- The item loop of `write`. -/
def writeItems : (specs : List VarSpec) → (items : List WriteVarData) → Eff Memory GoError Bytes
  | [], _ => pure []
  | spec :: specs, items => do
    let item ← indexAt items 0
    let code ← writeItem spec item
    let codes ← writeItems specs items.tail
    pure (code :: codes)

/-- Write Var: one return code per item. -/
def write (ref : UInt16) (param data : Bytes) : Eff Memory GoError Bytes := do
  let (specs, items) ← parseWriteVarRequest param data
  let codes ← writeItems specs items
  encodeWriteVarResponse ref codes

/-! ### Requests -/

/-- Run a call on the memory of the session. -/
def onMemory {α : Type} (x : Eff Memory GoError α) : Eff Session GoError α := fun s =>
  match x s.mem with
  | (r, mem) => (r, { s with mem })

/-- The answer of a job: one that returns an error is answered as not implemented. -/
def answerJob (ref : UInt16) (param : Bytes) (job : Eff Session GoError Bytes) :
    Eff Session GoError (Option Bytes × Bool) := do
  match ← job.attempt with
  | .ok out => pure (some out, true)
  | .error _ => pure (← notImplemented ref param, true)

/-- The part of `handle` after the header: the answer to a PDU with sections `param` and `data`. -/
def dispatch (cfg : ServerConfig) (rosctr : UInt8) (ref : UInt16) (param data : Bytes) :
    Eff Session GoError (Option Bytes × Bool) := do
  if rosctr = rosctrUserdata then
    pure (← userdataNotImplemented ref param, true)
  else if rosctr ≠ rosctrJob ∨ param.length = 0 then
    pure (← notImplemented ref param, true)
  else
    let fn ← indexAt param 0
    if fn = funcSetupComm then answerJob ref param (setup cfg ref param)
    else if fn = funcReadVar then answerJob ref param (do read (← Eff.get) ref param)
    else if fn = funcWriteVar then answerJob ref param (onMemory (write ref param data))
    else pure (← notImplemented ref param, true)

/-- Answer one S7 PDU: the answer, nil being `none`, and whether the connection is kept. -/
def handle (cfg : ServerConfig) (req : Bytes) : Eff Session GoError (Option Bytes × Bool) := do
  if req.length < s7HeaderSize then
    pure (none, false)
  else if (← indexAt req 0) ≠ 0x32 then
    pure (none, false)
  else
    let rosctr ← indexAt req 1
    let ref ← wordAt req 4
    let paramLen := (← wordAt req 6).toNat
    let dataLen := (← wordAt req 8).toNat
    if s7HeaderSize + paramLen + dataLen ≠ req.length then
      pure (none, false)
    else
      let param ← sliceOf req s7HeaderSize (s7HeaderSize + paramLen)
      let data ← sliceOf req (s7HeaderSize + paramLen) req.length
      dispatch cfg rosctr ref param data

end S7Comm
