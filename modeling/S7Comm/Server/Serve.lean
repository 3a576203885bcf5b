import S7Comm.Lib.Machine
import S7Comm.Server.Config

/-! The threads of the server (`server/server.go`): accept loops on any number of listeners, the goroutines of
    connections, and calls of Close. Every section under the mutex, every operation on the slots channel and every
    operation on the wait group is one step; steps of different threads interleave in any order. Connections, loops
    and calls of Close are numbered in the order in which they appear. -/

namespace S7Comm
open Go

/-! ### Threads -/

/-- Where a connection is. Until its goroutine has started, the accept loop takes its steps. -/
inductive ConnPc where
  /-- Accepted; a slot is to be taken. -/
  | accepted
  /-- There was no slot. -/
  | refused
  | turnedAway
  /-- It has a slot; `addConn` is next. -/
  | admitted
  /-- `addConn` refused it; the slot is to be given back, and the connection to be closed. -/
  | rejected
  | unslotted
  | dropped
  /-- It is in the set; `wg.Go` is next, which counts the goroutine and starts it. -/
  | added
  | counted
  /-- In `serveConn`. -/
  | running
  /-- `serveConn` has returned; `removeConn` takes it from the set and closes it. -/
  | served
  | removed
  /-- The slot is to be given back, and the goroutine to be counted off. -/
  | disposed
  | freed
  | done
  deriving Repr, DecidableEq

structure ServerConn where
  /-- The accept loop that it came from. -/
  loop : Nat
  pc : ConnPc := .accepted
  /-- How often it gave back a slot. -/
  released : Nat := 0
  deriving Repr, DecidableEq

/-- Where a call of `Serve` is. -/
inductive LoopPc where
  | entering
  | accepting
  | handling
  /-- `Accept` returned an error; `isClosed` is next. -/
  | checking (timeout : Bool)
  /-- `untrack` is next, and after it closing the listener. -/
  | leaving
  | untracked
  | returned
  deriving Repr, DecidableEq

structure ServeLoop where
  pc : LoopPc := .entering
  /-- The listener is in the set. -/
  tracked : Bool := false
  /-- The listener is open. -/
  opened : Bool := true
  deriving Repr, DecidableEq

/-- Where a call of `Close` is. -/
inductive CloserPc where
  | called
  | waiting
  | returned
  deriving Repr, DecidableEq

/-- What `Accept` returns. -/
inductive AcceptResult where
  | conn
  /-- An error; the context of the call has ended, or not. -/
  | err (ctxEnded timeout : Bool)
  deriving Repr, DecidableEq

structure ServerState where
  closed : Bool := false
  /-- The tokens in the slots channel. -/
  slots : Nat := 0
  /-- The counter of the wait group. -/
  wg : Nat := 0
  /-- The set of connections. -/
  conns : List Nat := []
  /-- The connections that were closed. -/
  shut : List Nat := []
  lives : List ServerConn := []
  loops : List ServeLoop := []
  closers : List CloserPc := []
  deriving Repr, DecidableEq

/-! ### Steps -/

namespace ServerState
variable (s : ServerState)

/-- The connection is at `pc`. -/
def move (i : Nat) (c : ServerConn) (pc : ConnPc) : ServerState := { s with lives := s.lives.set i { c with pc } }

/-- The connection gives back its slot; without a token in the channel the receive blocks. -/
def giveBack (i : Nat) (c : ServerConn) (pc : ConnPc) : Option ServerState :=
  if s.slots > 0 then
    some { s with slots := s.slots - 1, lives := s.lives.set i { c with pc, released := c.released + 1 } }
  else none

/-- The accept loop goes on. -/
def resume (l : Nat) (pc : LoopPc) : ServerState := { s with loops := s.loops.modify l fun loop => { loop with pc } }

/-- The next step of a connection. -/
def connStep (maxConnections i : Nat) (c : ServerConn) : Option ServerState :=
  match c.pc with
  | .accepted =>
    if s.slots < maxConnections then some { s.move i c .admitted with slots := s.slots + 1 }
    else some (s.move i c .refused)
  | .refused => some ({ s.move i c .turnedAway with shut := i :: s.shut }.resume c.loop .accepting)
  | .admitted =>
    if s.closed then some (s.move i c .rejected)
    else some { s.move i c .added with conns := i :: s.conns }
  | .rejected => s.giveBack i c .unslotted
  | .unslotted => some ({ s.move i c .dropped with shut := i :: s.shut }.resume c.loop .leaving)
  | .added => some { s.move i c .counted with wg := s.wg + 1 }
  | .counted => some ((s.move i c .running).resume c.loop .accepting)
  | .running => some (s.move i c .served)
  | .served => some { s.move i c .removed with conns := s.conns.filter (· != i) }
  | .removed => some { s.move i c .disposed with shut := i :: s.shut }
  | .disposed => s.giveBack i c .freed
  | .freed => some { s.move i c .done with wg := s.wg - 1 }
  | .turnedAway | .dropped | .done => none

/-- The next step of an accept loop; `r` is what `Accept` returns, if that is the step. -/
def loopStep (l : Nat) (loop : ServeLoop) (r : AcceptResult) : Option ServerState :=
  let set (loop : ServeLoop) : ServerState := { s with loops := s.loops.set l loop }
  match loop.pc with
  | .entering =>
    if s.closed then some (set { loop with pc := .untracked })
    else some (set { loop with pc := .accepting, tracked := true })
  | .accepting =>
    match r with
    | .conn =>
      if loop.opened then some { set { loop with pc := .handling } with lives := s.lives ++ [{ loop := l }] } else none
    | .err true _ => some (set { loop with pc := .leaving })
    | .err false timeout => some (set { loop with pc := .checking timeout })
  | .checking timeout =>
    if s.closed then some (set { loop with pc := .leaving })
    else if timeout then some (set { loop with pc := .accepting })
    else some (set { loop with pc := .leaving })
  | .leaving => some (set { loop with pc := .untracked, tracked := false })
  | .untracked => some (set { loop with pc := .returned, opened := false })
  | .handling | .returned => none

/-- The next step of a call of `Close`: the section under the mutex, then the wait. -/
def closerStep (k : Nat) (pc : CloserPc) : Option ServerState :=
  match pc with
  | .called =>
    let waiting := s.closers.set k .waiting
    if s.closed then some { s with closers := waiting }
    else some { s with
      closed := true
      loops := s.loops.map fun loop => if loop.tracked then { loop with opened := false } else loop
      shut := s.conns ++ s.shut
      closers := waiting }
  | .waiting => if s.wg = 0 then some { s with closers := s.closers.set k .returned } else none
  | .returned => none

end ServerState

/-- An action: a new call of `Serve` or of `Close`, or a step of a thread. The end of a context also calls `Close`. -/
inductive ServerAction where
  | serve
  | loop (l : Nat) (r : AcceptResult)
  | conn (i : Nat)
  | close
  | closer (k : Nat)
  deriving Repr, DecidableEq

def serverStep (cfg : ServerConfig) (s : ServerState) : ServerAction → Option ServerState
  | .serve => some { s with loops := s.loops ++ [{}] }
  | .loop l r => (s.loops[l]?).bind fun loop => s.loopStep l loop r
  | .conn i => (s.lives[i]?).bind fun c => s.connStep cfg.maxConnections i c
  | .close => some { s with closers := s.closers ++ [.called] }
  | .closer k => (s.closers[k]?).bind fun pc => s.closerStep k pc

end S7Comm
