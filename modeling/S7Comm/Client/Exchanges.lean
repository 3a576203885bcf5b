import S7Comm.Client.Client

/-! Exchanges with a peer that answers in any order, late, repeatedly or not at all. PDUs that the client has not
    read stay in the stream of the connection, so an exchange may find the answer to an earlier request there.
    The number of the request a PDU answers is known to the peer, not to the client. -/

namespace S7Comm
open Go

/-- A PDU on its way to the client, and the request it answers: requests are numbered in the order in which they
    take their references. -/
structure Arrival where
  pdu : Bytes
  answers : Nat
  deriving Repr, DecidableEq

/-- One exchange as the environment decides it: the request, what fails, and the PDUs that arrive before the client
    reads. -/
structure Exchange where
  req : Bytes
  writeErr : Option GoError := none
  ctxErr : Option GoError := none
  arrivals : List Arrival := []
  readErr : Option GoError := none
  deriving Repr, DecidableEq

/-- The receiving side of the connection during an exchange. -/
structure Stream where
  inbox : List Arrival
  current : Exchange
  /-- What the client read in this exchange. -/
  taken : Option Arrival := none
  deriving Repr, DecidableEq

def streamNet : Net Stream where
  ctxErr w := (w.current.ctxErr, w)
  wait w := (none, w)
  writeTSDU _ w := (w.current.writeErr, { w with inbox := w.inbox ++ w.current.arrivals })
  readTSDU w :=
    match w.current.readErr, w.inbox with
    | some err, _ => (.error err, w)
    | none, [] => (.error (.net true "i/o timeout"), w)
    | none, a :: inbox => (.ok a.pdu, { w with inbox, taken := some a })

/-- What an exchange ended with: its reference, what `sendReceive` returned and the PDU it read. -/
structure Ended where
  ref : UInt16
  result : Res (Bytes × Bytes)
  taken : Option Arrival
  deriving Repr, DecidableEq

/-- One exchange: the client takes a reference and sends. -/
def exchange (c : Client) (inbox : List Arrival) (x : Exchange) : Ended × Client × List Arrival :=
  let (ref, pduRef) := nextPDURefFrom c.pduRef
  match sendReceive streamNet x.req ref ({ c with pduRef }, { inbox, current := x }) with
  | (result, (c, w)) => (⟨ref, result, w.taken⟩, c, w.inbox)

/-- The exchanges of a connection, one after the other. -/
def exchanges (c : Client) (inbox : List Arrival) : List Exchange → List Ended
  | [] => []
  | x :: xs =>
    match exchange c inbox x with
    | (ended, c, inbox) => ended :: exchanges c inbox xs

end S7Comm
