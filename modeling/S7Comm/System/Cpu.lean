import S7Comm.Client.Upload

/-! A CPU that serves a block in segments, one for each Upload request that it receives, over a connection on which
    exchanges fail and later ones are still possible. -/

namespace S7Comm
open Go

/-- A segment that fits the data section of an answer. -/
abbrev Segment : Type := { s : Bytes // s.length ≤ 65529 }

/-- What becomes of an exchange. -/
inductive Passage where
  | delivered
  /-- The exchange fails before the CPU receives the request. -/
  | requestLost (err : GoError)
  /-- The exchange fails after the CPU has answered. -/
  | answerLost (err : GoError)
  deriving Repr, DecidableEq

structure Cpu where
  uploadID : UInt32
  /-- The parameter section of the start upload answer after the upload ID: the length of the block. -/
  announced : Bytes
  /-- The segments that are not served yet. -/
  segments : List Segment
  /-- The header error of an Upload request after the last segment. -/
  errClass : UInt8
  errCode : UInt8
  refuses : errClass ≠ 0 ∨ errCode ≠ 0
  /-- The exchanges to come; those after the list are delivered. -/
  passages : List Passage
  /-- What the client reads next. -/
  pending : Except GoError Bytes := .error (.net true "i/o timeout")

/-- The answer with a segment. -/
def segmentAnswer (ref : UInt16) (s : Bytes) (last : Bool) : Bytes :=
  encoded (encodeAckData ref 0 0 [funcUpload, if last then 0x00 else 0x01]
    (putUint16 (UInt16.ofNat s.length) ++ [0x00, 0xFB] ++ s))

/-- The answer to a request, with its reference, and the CPU after it. -/
def Cpu.answer (cpu : Cpu) (req : Bytes) : Bytes × Cpu :=
  let ref := be16 (req.getD 4 0) (req.getD 5 0)
  let fn := req.getD 10 0
  if fn = funcUpload then
    match cpu.segments with
    | [] => (encoded (encodeAckData ref cpu.errClass cpu.errCode [] []), cpu)
    | s :: rest => (segmentAnswer ref s.val rest.isEmpty, { cpu with segments := rest })
  else if fn = funcUploadStart then
    (encoded (encodeAckData ref 0 0 ([funcUploadStart, 0, 0, 0] ++ putUint32 cpu.uploadID ++ cpu.announced) []), cpu)
  else
    (encoded (encodeAckData ref 0 0 [fn] []), cpu)

def cpuNet : Net Cpu where
  ctxErr cpu := (none, cpu)
  wait cpu := (none, cpu)
  writeTSDU req cpu :=
    match cpu.passages.headD .delivered with
    | .requestLost err => (some err, { cpu with passages := cpu.passages.tail })
    | .answerLost err => (none, { (cpu.answer req).2 with passages := cpu.passages.tail, pending := .error err })
    | .delivered =>
      (none, { (cpu.answer req).2 with passages := cpu.passages.tail, pending := .ok (cpu.answer req).1 })
  readTSDU cpu := (cpu.pending, cpu)

/-! ### What the segments come to -/

/-- The segments whose answers reach the client, in a run of Upload requests over these passages. -/
def keptSegments : List Segment → List Passage → List Segment
  | [], _ => []
  | s :: ss, [] => s :: ss
  | s :: ss, .delivered :: ps => s :: keptSegments ss ps
  | s :: ss, .requestLost _ :: ps => keptSegments (s :: ss) ps
  | _ :: ss, .answerLost _ :: ps => keptSegments ss ps

/-- The segments whose answers are lost on the way. -/
def lostSegments : List Segment → List Passage → List Segment
  | [], _ => []
  | _ :: _, [] => []
  | _ :: ss, .delivered :: ps => lostSegments ss ps
  | s :: ss, .requestLost _ :: ps => lostSegments (s :: ss) ps
  | s :: ss, .answerLost _ :: ps => s :: lostSegments ss ps

end S7Comm
