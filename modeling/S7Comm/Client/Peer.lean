import S7Comm.Client.ReadWrite
import S7Comm.Lib.Pieces

/-! `ReadArea` against any peer. A chunk is one turn: the client asks, and the context, the connection and the peer do
    as the turn says. What becomes of a chunk is a function of its turn; the payloads that the client takes are
    the pieces of the read. -/

namespace S7Comm
open Go

/-- What the client meets in the turn of one chunk; the answer is any TSDU, or the error of the read. -/
structure Turn where
  /-- The context before the request and after it. -/
  ctxErr : Option GoError := none
  lateErr : Option GoError := none
  /-- The pause of the rate limit. -/
  waitErr : Option GoError := none
  writeErr : Option GoError := none
  answer : Except GoError Bytes
  deriving DecidableEq

/-- The turn of a peer that is gone. -/
def Turn.lost : Turn := { answer := .error (.net false "EOF") }

structure Peer where
  turns : List Turn
  /-- The request of the current turn is sent. -/
  sent : Bool := false
  deriving DecidableEq

def Peer.current (w : Peer) : Turn := w.turns.headD .lost

def peerNet : Net Peer where
  ctxErr w := (if w.sent then w.current.lateErr else w.current.ctxErr, w)
  wait w := (w.current.waitErr, w)
  writeTSDU _ w := (w.current.writeErr, { w with sent := true })
  readTSDU w := (w.current.answer, { turns := w.turns.tail })

/-! ### Chunks -/

/-- What becomes of a chunk. -/
inductive Fate where
  /-- The exchange fails, and the result carries no data. -/
  | failed
  /-- The answer ends the call, with what was read before it. -/
  | ended
  /-- The answer makes a parser panic. -/
  | crashed
  | taken (payload : Bytes)
  deriving Repr, DecidableEq

/-- An answer with these sections: a payload within the chunk is taken, anything else ends the call. -/
def sectionsFate (chunkSize : Nat) (param data : Bytes) : Fate :=
  match parseReadVarResponse param data with
  | .ok (item :: _) =>
    if returnCodeError item.returnCode = none ∧ item.data.length ≤ chunkSize then .taken item.data else .ended
  | .panic => .crashed
  | _ => .ended

/-- The PDU of an answer. -/
def answerFate (ref : UInt16) (chunkSize : Nat) (pdu : Bytes) : Fate :=
  match responseSections pdu ref with
  | .ok (param, data) => sectionsFate chunkSize param data
  | .fail _ => .failed
  | .panic => .crashed

/-- The context ends before the request is sent. -/
def Turn.stopped (t : Turn) (c : Client) (first : Bool) : Prop :=
  t.ctxErr.isSome ∨ (c.rateLimit > 0 ∧ !first ∧ t.waitErr.isSome)

instance (t : Turn) (c : Client) (first : Bool) : Decidable (t.stopped c first) := by
  unfold Turn.stopped
  infer_instance

/-- The PDU that the exchange reads, if it gets that far; a Read Var request of one item has the size of the
    overhead. -/
def Turn.delivered (t : Turn) (c : Client) : Option Bytes :=
  if !c.connected ∨ (c.pduSize > 0 ∧ readVarRequestOverhead > c.pduSize) then none
  else if t.writeErr.isSome ∨ t.lateErr.isSome then none
  else t.answer.toOption

def Turn.fate (t : Turn) (c : Client) (first : Bool) (ref : UInt16) (chunkSize : Nat) : Fate :=
  if t.stopped c first then .failed
  else
    match t.delivered c with
    | none => .failed
    | some pdu => answerFate ref chunkSize pdu

/-- The pieces a read takes from its turns, each with the offset and the size of its chunk, and the fate that ends
    it: `ended` also when every chunk is taken. -/
def takings (c : Client) : (chunks : List Nat) → (first : Bool) → (offset : Nat) → List Turn →
    List (Piece UInt8) × Fate
  | [], _, _, _ => ([], .ended)
  | n :: chunks, first, offset, turns =>
    let (ref, pduRef) := nextPDURefFrom c.pduRef
    match (turns.headD .lost).fate c first ref n with
    | .taken payload =>
      let (pieces, last) := takings { c with pduRef } chunks false (offset + n) turns.tail
      (⟨offset, n, payload⟩ :: pieces, last)
    | fate => ([], fate)

/-- The takings of `ReadArea`. -/
def readTakings (addr : Address) (c : Client) (turns : List Turn) : List (Piece UInt8) × Fate :=
  takings c (planReadChunks addr.size.toNat (maxChunkData c.pduSize readVarRequestOverhead)) true addr.start.toNat turns

end S7Comm
