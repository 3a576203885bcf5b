import S7Comm.Client.Client

/-! Exchanges on one connection whose contexts end. The transport delivers every TSDU once and in order, and the peer
    answers every request it receives, in order, so the PDUs that the client has not read form a queue. Of
    go-cotp this assumes that a completed write leaves the connection open, and that a call which is interrupted
    inside its I/O closes it. -/

namespace S7Comm
open Go

/-- Where the context of an exchange ends. -/
inductive CtxEnd where
  | never
  /-- Before the write: the write is refused, and the connection stays open or is closed. -/
  | beforeWrite (closes : Bool)
  | insideWrite
  /-- After the completed write, before `sendReceive` looks at the context. -/
  | beforeCheck
  /-- After `sendReceive` has looked at the context, before the I/O of the read: the read is refused. -/
  | beforeRead
  | insideRead
  deriving Repr, DecidableEq

/-- The context ends between the completed write and the read. -/
def CtxEnd.inGap : CtxEnd → Bool
  | beforeCheck | beforeRead => true
  | _ => false

/-- The end of the context closes the connection: inside the I/O it does, before the write it may. -/
def CtxEnd.closes : CtxEnd → Bool
  | beforeWrite closes => closes
  | insideWrite | insideRead => true
  | never | beforeCheck | beforeRead => false

/-- A call of `sendReceive`, the answer of the peer to its request, and what becomes of its context. -/
structure Call where
  req : Bytes
  ref : UInt16
  answer : Bytes
  ctxEnd : CtxEnd := .never
  /-- The error of the context once it has ended. -/
  ctxErr : GoError := .sentinel .canceled
  deriving Repr, DecidableEq

/-- The connection during a call. -/
structure Line where
  opened : Bool
  /-- Answers that the client has not read. -/
  unread : List Bytes
  current : Call
  deriving Repr, DecidableEq

def lineNet : Net Line where
  ctxErr w := (if w.current.ctxEnd = .beforeCheck then some w.current.ctxErr else none, w)
  wait w := (none, w)
  writeTSDU _ w :=
    if !w.opened then (some (.net false "use of closed connection"), w)
    else
      match w.current.ctxEnd with
      | .beforeWrite closes => (some w.current.ctxErr, { w with opened := !closes })
      | .insideWrite => (some w.current.ctxErr, { w with opened := false })
      | _ => (none, { w with unread := w.unread ++ [w.current.answer] })
  readTSDU w :=
    if !w.opened then (.error (.net false "use of closed connection"), w)
    else
      match w.current.ctxEnd, w.unread with
      | .beforeRead, _ => (.error w.current.ctxErr, w)
      | .insideRead, _ => (.error w.current.ctxErr, { w with opened := false })
      | _, [] => (.error (.net true "i/o timeout"), w)
      | _, pdu :: unread => (.ok pdu, { w with unread })

/-- One call on the connection. -/
def lineCall (c : Client) (opened : Bool) (unread : List Bytes) (x : Call) : Res (Bytes × Bytes) × Client × Line :=
  sendReceive lineNet x.req x.ref (c, { opened, unread, current := x })

/-- What the calls on one connection return, one after the other. -/
def lineCalls (c : Client) (opened : Bool) (unread : List Bytes) : List Call → List (Res (Bytes × Bytes))
  | [] => []
  | x :: xs =>
    match lineCall c opened unread x with
    | (result, (c, w)) => result :: lineCalls c w.opened w.unread xs

end S7Comm
