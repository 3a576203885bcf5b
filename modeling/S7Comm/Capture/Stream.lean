import Mathlib.Data.List.Sort
import S7Comm.Lib.Bytes

/-! Reassembly of recorded TCP traffic (`internal/capture/capture.go`): the segments of a flow, and the runs of
    contiguous bytes they make. -/

namespace S7Comm.Capture
open Go

/-- The TCP payload of one frame; a frame without payload leaves no segment. -/
structure Segment where
  frame : Nat
  seq : UInt32
  payload : Bytes
  nonempty : payload ≠ []
  deriving Repr, DecidableEq

/-- One direction of a TCP connection. Its two addresses, which reassembly does not look at, are left out. -/
structure Flow where
  syn : Bool := false
  isn : UInt32 := 0
  segs : List Segment := []
  deriving Repr, DecidableEq

/-- What `frame` does to the flow of a TCP packet: data starts after a SYN, and a new SYN starts the flow again. -/
def Flow.frame (f : Flow) (num : Nat) (syn : Bool) (seq : UInt32) (payload : Bytes) : Flow :=
  if syn then { syn := true, isn := seq, segs := [] }
  else if h : payload ≠ [] then { f with segs := f.segs ++ [⟨num, seq, payload, h⟩] }
  else f

/-! ### Runs of bytes -/

/-- Reassembled data with the frame that delivered each byte. -/
structure Chunk where
  data : Bytes := []
  frames : List Nat := []
  sized : frames.length = data.length := by rfl
  deriving Repr, DecidableEq

/-- The chunk with the bytes of one frame after it. -/
def Chunk.append (c : Chunk) (p : Bytes) (frame : Nat) : Chunk where
  data := c.data ++ p
  frames := c.frames ++ List.replicate p.length frame
  sized := by simp [c.sized]

/-- `a - b` in TCP sequence space: negative when `a` lies before `b`. -/
def seqDiff (a b : UInt32) : Int :=
  let d : Int := (a - b).toNat
  if d ≥ 2 ^ 31 then d - 2 ^ 32 else d

/-- The loop of `stream`: the finished chunks, the one that grows, and the offset of the next byte expected. -/
structure Assembly where
  done : List Chunk := []
  cur : Chunk := {}
  next : Int := 0

def Assembly.chunks (a : Assembly) : List Chunk := a.done ++ [a.cur]

/-- One round of the loop. Bytes already delivered are dropped; a gap starts a new chunk. Where bytes are cut off,
    the segment ends after them. -/
def Assembly.deliver (base : UInt32) (a : Assembly) (s : Segment) : Assembly :=
  let start := seqDiff s.seq base
  let stop := start + s.payload.length
  if stop ≤ a.next then a
  else if start > a.next then { done := a.chunks, cur := Chunk.append {} s.payload s.frame, next := stop }
  else { a with cur := a.cur.append (s.payload.drop (a.next - start).toNat) s.frame, next := stop }

/-- The segments in sequence order; segments with one sequence number stay in the order of their arrival. -/
def sortedBy (base : UInt32) (segs : List Segment) : List Segment :=
  segs.insertionSort fun s t => seqDiff s.seq base ≤ seqDiff t.seq base

/-- The flow in sequence order, in runs of contiguous bytes. Without a SYN the first segment to arrive is taken as the
    start. -/
def Flow.stream (f : Flow) : List Chunk :=
  match f.segs with
  | [] => []
  | s :: _ =>
    let base := if f.syn then f.isn + 1 else s.seq
    ((sortedBy base f.segs).foldl (Assembly.deliver base) {}).chunks

end S7Comm.Capture
