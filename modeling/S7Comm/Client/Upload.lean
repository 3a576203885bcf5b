import S7Comm.Client.Client
import S7Comm.Wire.Blocks

/-! Block upload (`client/blocks.go`). -/

namespace S7Comm
open Go

def maxUploadChunks : Nat := 4096
def maxUploadRetries : Nat := 3

/-- A protocol or parse failure, which is not retried. -/
def isUploadProtocolError (err : GoError) : Bool := err.is .protocolFailure || err.isS7

/-- A block that was uploaded; the fields of its info that `UploadBlock` leaves at zero are left out. -/
structure BlockData where
  blockType : UInt8
  number : Int
  data : Bytes
  deriving Repr, DecidableEq

section Upload
variable {σ : Type} (net : Net σ) (uploadID : UInt32)

/-- The tries for chunk `i`, with `left` of them to go and the error of the last one. -/
def uploadChunk (i received : Nat) : (left : Nat) → (lastErr : Option GoError) → ClientM σ UploadChunk
  | 0, some err =>
    Eff.fail (.wrap (s!"upload chunk {i} failed after {maxUploadRetries} retries (received {received} bytes so far): " ++
      err.error) err)
  | 0, none => liftM (Outcome.panic : Res UploadChunk)
  | left + 1, _ => do
    netErr net.ctxErr
    let chunkRef ← nextPDURef
    let failed (err : GoError) : ClientM σ UploadChunk :=
      if isUploadProtocolError err then Eff.fail (.wrap (s!"upload chunk {i}: " ++ err.error) err)
      else uploadChunk i received left (some err)
    match ← Eff.attempt (sendReceive net (encodeUploadRequest chunkRef uploadID) chunkRef) with
    | .error err => failed err
    | .ok (param, data) =>
      match asProtocolFailure "parse upload response" (parseUploadResponse param data) with
      | .fail err => failed err
      | r => r

/-- The chunks from `i` on, with `left` of them allowed: the payload and the number of chunks that are not empty. -/
def uploadChunks : (left : Nat) → (i : Nat) → (payload : Bytes) → (chunkCount : Nat) → ClientM σ (Bytes × Nat)
  | 0, _, _, _ => Eff.fail (.text s!"upload did not complete within {maxUploadChunks} chunks")
  | left + 1, i, payload, chunkCount => do
    let chunk ← uploadChunk net uploadID i payload.length maxUploadRetries none
    let chunkCount := if chunk.data.length > 0 then chunkCount + 1 else chunkCount
    if chunk.done then pure (payload ++ chunk.data, chunkCount)
    else uploadChunks left (i + 1) (payload ++ chunk.data) chunkCount

/-- The cleanup after an upload. -/
def endUpload : ClientM σ Unit := do
  let endRef ← nextPDURef
  let _ ← sendReceive net (encodeEndUploadRequest endRef uploadID) endRef

end Upload

def uploadBlock {σ : Type} (net : Net σ) (blockType : UInt8) (num : Int) : ClientM σ BlockData := do
  if num < 0 ∨ num > 0xFFFF then
    Eff.fail (.validation s!"block number {num} out of range (0..65535)")
  else
    let ref ← nextPDURef
    let req ← asValidation (encodeStartUploadRequest ref blockType num)
    let (param, _) ← sendReceive net req ref
    let start ← asProtocolFailure "parse start upload" (parseStartUploadResponse param)
    Eff.deferred (endUpload net start.uploadID) do
      let (payload, chunkCount) ← uploadChunks net start.uploadID maxUploadChunks 0 [] 0
      if payload.length = 0 ∧ chunkCount = 0 then Eff.fail (.text "upload completed with no payload")
      else pure ⟨blockType, num, payload⟩

end S7Comm
