import S7Comm.Client.Client

/-! Chunked reads and writes of a memory area (`client/readwrite.go`, `client/validation.go`). -/

namespace S7Comm
open Go

/-- A variable address of the public API. -/
structure Address where
  area : UInt8
  dbNumber : Int
  start : Int
  size : Int
  deriving Repr, DecidableEq

/-! ### Validation -/

def validateAddress (addr : Address) : Res Unit :=
  if addr.start < 0 then .fail (.validation s!"start offset must be >= 0, got {addr.start}")
  else if addr.size < 0 then .fail (.validation s!"size must be >= 0, got {addr.size}")
  else if addr.area = areaDB ∧ addr.dbNumber < 0 then
    .fail (.validation s!"DB number must be >= 0, got {addr.dbNumber}")
  else if addr.dbNumber < 0 ∨ addr.dbNumber > maxS7AnyDBNumber then
    .fail (.validation s!"DB number must be 0..{maxS7AnyDBNumber}, got {addr.dbNumber}")
  else if addr.start > maxS7AnyByteOffset then
    .fail (.validation s!"start offset must be <= {maxS7AnyByteOffset}, got {addr.start}")
  else .ok ()

/-- `n` bytes from `start` stay inside the S7ANY address space. -/
def validateRangeEnd (start n : Int) : Res Unit :=
  if n > maxS7AnyByteOffset + 1 - start then
    .fail (.validation s!"range {start}+{n} ends past the last S7 byte address {maxS7AnyByteOffset}")
  else .ok ()

/-! ### Results -/

inductive ReadStatus where
  | success | shortRead | emptyRead | rejected | timeout | transportErr | protocolErr | inconclusive
  deriving Repr, DecidableEq

/-- The outcome of a read; the warnings, which `ReadArea` never sets, are left out. -/
structure ReadResult where
  status : ReadStatus
  requestedLength : Nat
  returnedLength : Nat
  data : Bytes
  message : String := ""
  cause : Option GoError := none
  itemStatus : String := ""
  returnCode : UInt8 := 0
  deriving Repr, DecidableEq

def classifyOpError (err : GoError) : ReadStatus :=
  if err.is .deadlineExceeded then .timeout
  else if err.netTimeout? = some true then .timeout
  else if err.is .notConnected then .transportErr
  else if err.isS7 then .rejected
  else if err.is .shortS7Header || err.is .invalidS7ProtocolID || err.is .shortS7AckHeader ||
      err.is .s7PayloadLength then .protocolErr
  else if err.is .protocolFailure then .protocolErr
  else if err.is .requestExceedsPDU then .protocolErr
  else .transportErr

def newFailedReadResult (requested : Nat) (err : GoError) : ReadResult :=
  { status := classifyOpError err, requestedLength := requested, returnedLength := 0, data := [],
    message := err.error, cause := some err }

def classifyReadOutcome (requested returned : Nat) : ReadStatus :=
  if requested = 0 then .success
  else if returned = 0 then .emptyRead
  else if returned < requested then .shortRead
  else .success

/-! ### Chunks -/

/-- The loop of `planReadChunks`. -/
def planLoop (maxChunk : Nat) (pos : 0 < maxChunk) (remaining : Nat) : List Nat :=
  if _h : remaining = 0 then []
  else
    let n := min remaining maxChunk
    n :: planLoop maxChunk pos (remaining - n)
termination_by remaining
decreasing_by omega

def planReadChunks (total maxChunk : Nat) : List Nat :=
  if h : total = 0 then []
  else if h' : maxChunk = 0 then planLoop total (by omega) total
  else planLoop maxChunk (by omega) total

/-- The payload of one chunk: what the PDU leaves after the overhead, or 200 when it leaves nothing. -/
def maxChunkData (pduSize overhead : Nat) : Nat :=
  let maxData := pduSize - overhead
  if maxData < 1 then 200 else maxData

/-! ### ReadArea -/

/-- What `ReadArea` makes of an answer to a chunk of `chunkSize` bytes, with `result` read so far: it returns
    a result (`.error`) or takes the payload of the first item. -/
def readAnswer (reqLen : Nat) (result : Bytes) (chunkSize : Nat) (param data : Bytes) :
    Res (Except ReadResult Bytes) :=
  let out (status : ReadStatus) : ReadResult :=
    { status, requestedLength := reqLen, returnedLength := result.length, data := result }
  match parseReadVarResponse param data with
  | .panic => .panic
  | .fail err => .ok (.error { out .protocolErr with message := err.error })
  | .ok [] => .ok (.error { out .emptyRead with message := "no data returned" })
  | .ok (item :: _) =>
    match returnCodeError item.returnCode with
    | some err =>
      .ok (.error { out .rejected with
        returnCode := item.returnCode
        message := err.error
        itemStatus := itemReturnCodeString item.returnCode })
    | none =>
      if item.data.length > chunkSize then
        let message := s!"item returned {item.data.length} bytes for {chunkSize} requested"
        .ok (.error { out .protocolErr with
          message
          cause := some (.wrap (message ++ ": " ++ Sentinel.protocolFailure.text) (.sentinel .protocolFailure)) })
      else .ok (.ok item.data)

section Chunks
variable {σ : Type} (net : Net σ) (addr : Address)

/-- The checks of the context before a chunk: its end, and the pause of the rate limit. -/
def chunkGate (first : Bool) : ClientM σ Unit := do
  netErr net.ctxErr
  let (c, _) ← Eff.get
  if c.rateLimit > 0 ∧ !first then netErr net.wait else pure ()

/-- The body of the chunk loop of `ReadArea`. -/
def readChunk (reqLen : Nat) (first : Bool) (offset : Nat) (result : Bytes) (chunkSize : Nat) :
    ClientM σ (Except ReadResult Bytes) := do
  match ← (chunkGate net first).attempt with
  | .error err => pure (.error (newFailedReadResult reqLen err))
  | .ok () =>
    let ref ← nextPDURef
    match encodeReadVarRequest ref [⟨addr.area, addr.dbNumber, offset, chunkSize⟩] with
    | .panic => liftM (Outcome.panic : Res _)
    | .fail err => Eff.fail (.validation err.error)
    | .ok req =>
      match ← (sendReceive net req ref).attempt with
      | .error err => pure (.error (newFailedReadResult reqLen err))
      | .ok (param, data) => readAnswer reqLen result chunkSize param data

/-- The end of `ReadArea`, when every chunk was taken. -/
def readOutcome (reqLen : Nat) (result : Bytes) : ReadResult :=
  let status := classifyReadOutcome reqLen result.length
  { status, requestedLength := reqLen, returnedLength := result.length, data := result,
    message :=
      if status = .emptyRead then "target returned no data for requested range"
      else if status = .shortRead then s!"short read: requested {reqLen}, got {result.length}"
      else "" }

/-- The chunk loop of `ReadArea`. -/
def readChunks (reqLen : Nat) : (chunks : List Nat) → (first : Bool) → (offset : Nat) → (result : Bytes) →
    ClientM σ ReadResult
  | [], _, _, result => pure (readOutcome reqLen result)
  | chunkSize :: chunks, first, offset, result => do
    match ← readChunk net addr reqLen first offset result chunkSize with
    | .error out => pure out
    | .ok data => readChunks reqLen chunks false (offset + chunkSize) (result ++ data)

def readArea : ClientM σ ReadResult := do
  let _ ← validateAddress addr
  let _ ← validateRangeEnd addr.start addr.size
  let reqLen := addr.size.toNat
  let (c, _) ← Eff.get
  let chunks := planReadChunks reqLen (maxChunkData c.pduSize readVarRequestOverhead)
  readChunks net addr reqLen chunks true addr.start.toNat []

/-! ### WriteArea -/

/-- The body of the chunk loop of `WriteArea`, for the chunk that starts `offset` bytes into the data. -/
def writeChunk (data : Bytes) (first : Bool) (offset chunkSize : Nat) : ClientM σ Unit := do
  chunkGate net first
  let chunk ← sliceOf data offset (offset + chunkSize)
  let ref ← nextPDURef
  match encodeWriteVarRequest ref ⟨addr.area, addr.dbNumber, addr.start + offset, chunk.length⟩ chunk with
  | .panic => liftM (Outcome.panic : Res _)
  | .fail err => Eff.fail (.validation err.error)
  | .ok req =>
    let (param, respData) ← sendReceive net req ref
    parseWriteVarResponse param respData

/-- The chunk loop of `WriteArea`. -/
def writeChunks (data : Bytes) : (chunks : List Nat) → (first : Bool) → (offset : Nat) → ClientM σ Unit
  | [], _, _ => pure ()
  | chunkSize :: chunks, first, offset => do
    writeChunk net addr data first offset chunkSize
    writeChunks data chunks false (offset + chunkSize)

/-- Writes `data` at the start of `addr`, whose size is ignored. -/
def writeArea (data : Bytes) : ClientM σ Unit := do
  let _ ← validateAddress addr
  let _ ← validateRangeEnd addr.start data.length
  netErr net.ctxErr
  let (c, _) ← Eff.get
  let chunks := planReadChunks data.length (maxChunkData c.pduSize writeVarRequestOverhead)
  writeChunks net addr data chunks true 0

end Chunks
end S7Comm
