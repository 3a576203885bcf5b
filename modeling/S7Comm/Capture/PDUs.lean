import S7Comm.Capture.Stream
import S7Comm.Errors

/-! S7 PDUs in recorded traffic (`internal/capture/capture.go`): a run of bytes is split into TPKT packets, COTP
    connection management is counted, and data TPDUs are joined up to the end-of-TSDU mark. -/

namespace S7Comm.Capture
open Go

/-- An S7 PDU; `frame` is the one that completed it. -/
structure PDU where
  fromClient : Bool
  frame : Nat
  data : Bytes
  deriving Repr, DecidableEq

/-- What a run or a flow holds: PDUs, connect requests and confirms, and what was dropped. -/
structure Split where
  out : List PDU := []
  cr : Nat := 0
  cc : Nat := 0
  dropped : Nat := 0
  deriving Repr, DecidableEq

/-- The loop of `pdus` before a packet: the TSDU so far, and what was found. -/
structure Joining where
  tsdu : Bytes := []
  out : List PDU := []
  cr : Nat := 0
  cc : Nat := 0
  deriving Repr, DecidableEq

/-- What is counted for a TSDU without its last TPDU. -/
def Joining.unfinished (s : Joining) : Nat := if s.tsdu.length > 0 then 1 else 0

/-- The end of the run at the end of a packet. -/
def Joining.finish (s : Joining) : Split := ⟨s.out, s.cr, s.cc, s.unfinished⟩

/-- The end of the run inside a packet. -/
def Joining.cut (s : Joining) : Split := ⟨s.out, s.cr, s.cc, 1 + s.unfinished⟩

/-- The TPDU of a packet of `n` bytes at `off`. -/
def takeTPDU (c : Chunk) (fromClient : Bool) (off n : Nat) (s : Joining) : Res Joining := do
  let tpdu ← sliceOf c.data (off + 4) (off + n)
  let li := (← indexAt tpdu 0).toNat
  if li + 1 > tpdu.length ∨ li < 1 then
    .fail (.text s!"COTP length indicator {li} at stream offset {off}")
  else
    let kind := (← indexAt tpdu 1) &&& 0xF0
    if kind = 0xE0 then pure { s with cr := s.cr + 1 }
    else if kind = 0xD0 then pure { s with cc := s.cc + 1 }
    else if kind = 0xF0 then
      if li < 2 then
        .fail (.text s!"COTP DT length indicator {li} at stream offset {off}")
      else
        let tsdu := s.tsdu ++ (← sliceOf tpdu (li + 1) tpdu.length)
        if (← indexAt tpdu 2) &&& 0x80 ≠ 0 then
          if tsdu.head? = some 0x32 then
            let frame ← indexAt c.frames (off + n - 1)
            pure { s with tsdu := [], out := s.out ++ [⟨fromClient, frame, tsdu⟩] }
          else
            pure { s with tsdu := [] }
        else
          pure { s with tsdu }
    else pure s

/-- The loop of `pdus` from `off` on. A packet that is cut off, by a gap or by the end of the capture, ends it. -/
def pdusFrom (c : Chunk) (fromClient : Bool) (off : Nat) (s : Joining) : Res Split := do
  if _h : off < c.data.length then
    if c.data.length - off < 4 then
      pure s.cut
    else
      let n := (← wordAt c.data (off + 2)).toNat
      if n > c.data.length - off then
        pure s.cut
      else
        let version ← indexAt c.data off
        if version ≠ 3 then
          .fail (.text s!"TPKT version {version} at stream offset {off}")
        else if _h : n < 7 then
          .fail (.text s!"TPKT length {n} at stream offset {off}")
        else
          let s ← takeTPDU c fromClient off n s
          pdusFrom c fromClient (off + n) s
  else
    pure s.finish
termination_by c.data.length - off

def pdus (c : Chunk) (fromClient : Bool) : Res Split := pdusFrom c fromClient 0 {}

/-- The loop of `flowPDUs` over the runs. -/
def runsPDUs (fromClient : Bool) : List Chunk → Split → Res Split
  | [], acc => pure acc
  | r :: runs, acc => do
    let p ← pdus r fromClient
    runsPDUs fromClient runs ⟨acc.out ++ p.out, acc.cr + p.cr, acc.cc + p.cc, acc.dropped + p.dropped⟩

/-- What all runs of a flow hold, and the number of gaps between them. -/
def flowPDUs (f : Flow) (fromClient : Bool) : Res (Split × Nat) := do
  let runs := f.stream
  let s ← runsPDUs fromClient runs {}
  pure (s, runs.length - 1)

end S7Comm.Capture
