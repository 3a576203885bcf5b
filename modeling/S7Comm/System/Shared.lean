import S7Comm.Client.ReadWrite
import S7Comm.Server.Host

/-! A client on one session of a server that other sessions and the host use as well, over a transport that may fail.
    The environment is given in turns, one for each request: what the others do before the request is served, what the
    context of the call says, and what becomes of the request and of its answer. -/

namespace S7Comm
open Go

/-- Whether the event is a request of the session. -/
def Event.isOf (id : Nat) : Event → Bool
  | request session _ => session == id
  | _ => false

/-- What becomes of a request and of its answer. -/
inductive Delivery where
  | answered
  /-- The write fails, and nothing of the request arrives. -/
  | lost (err : GoError)
  /-- The write fails, though the request arrives. -/
  | unsure (err : GoError)
  /-- The request is served, and the context ends before its answer is read. -/
  | canceled (err : GoError)
  /-- The request is served, and the read of its answer fails. -/
  | unanswered (err : GoError)
  deriving Repr, DecidableEq

/-- The environment of one request of session `id`. -/
structure Interlude (id : Nat) where
  /-- The error of the context before the request. -/
  ctx : Option GoError := none
  /-- The error of the context during the pause of the rate limit. -/
  pause : Option GoError := none
  /-- What the server serves in between. -/
  others : List Event := []
  /-- It comes from other sessions and from the host. -/
  foreign : ∀ e ∈ others, e.isOf id = false
  delivery : Delivery := .answered

structure SharedLink (id : Nat) where
  server : Server
  turns : List (Interlude id)
  /-- The server still holds the connection. -/
  kept : Bool := true
  /-- What the context says while an answer is due; `none` between two exchanges. -/
  due : Option (Option GoError) := none
  /-- What the next reads find. -/
  inbox : List (Except GoError Bytes) := []
  /-- What the server has served since the call began, in this order. -/
  history : List Event := []

namespace SharedLink
variable {id : Nat}

/-- The server serves events of others. -/
def pass (cfg : ServerConfig) (events : List Event) (w : SharedLink id) : SharedLink id :=
  { w with server := w.server.run cfg events, history := w.history ++ events }

/-- One turn of the loop of `serveConn`, as `Link.serve` on a connection that is not shared. -/
def serve (cfg : ServerConfig) (req : Bytes) (w : SharedLink id) : SharedLink id :=
  let e := Event.request id req
  let w' := { w with server := w.server.step cfg e, history := w.history ++ [e] }
  match (handle cfg req (w.server.session id)).1 with
  | .ok (out, keep) => { w' with kept := keep, inbox := w.inbox ++ out.toList.map Except.ok }
  | _ => { w' with kept := false }

/-- A request is written in turn `t`. -/
def write (cfg : ServerConfig) (req : Bytes) (t : Interlude id) (w : SharedLink id) : Option GoError × SharedLink id :=
  let w := w.pass cfg t.others
  if !w.kept then (some (.net false "broken pipe"), w)
  else
    match t.delivery with
    | .answered => (none, { w.serve cfg req with due := some none })
    | .lost err => (some err, w)
    | .unsure err => (some err, w.serve cfg req)
    | .canceled err => (none, { w.serve cfg req with due := some (some err) })
    | .unanswered err => (none, { w.serve cfg req with due := some none, inbox := [.error err] })

end SharedLink

def sharedNet (cfg : ServerConfig) (id : Nat) : Net (SharedLink id) where
  ctxErr w := (w.due.getD (w.turns.head?.bind Interlude.ctx), w)
  wait w := (w.turns.head?.bind Interlude.pause, w)
  writeTSDU req w :=
    match w.turns with
    | [] => (some (.net false "broken pipe"), w)
    | t :: turns => { w with turns }.write cfg req t
  readTSDU w :=
    match w.inbox with
    | .ok out :: inbox => (.ok out, { w with inbox, due := none })
    | .error err :: inbox => (.error err, { w with inbox, due := none })
    | [] => (.error (.net false "EOF"), w)

/-- The memory before and after each request of session `id` in a run of the server. -/
def ownSteps (cfg : ServerConfig) (id : Nat) (srv : Server) : List Event → List (Memory × Memory)
  | [] => []
  | e :: events =>
    let rest := ownSteps cfg id (srv.step cfg e) events
    if e.isOf id then (srv.mem, (srv.step cfg e).mem) :: rest else rest

/-- The chunks of a call with where each starts, the first of them at `offset`. -/
def chunkSpans (offset : Nat) : List Nat → List (Nat × Nat)
  | [] => []
  | n :: chunks => (offset, n) :: chunkSpans (offset + n) chunks

end S7Comm
