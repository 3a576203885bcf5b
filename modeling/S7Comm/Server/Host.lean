import S7Comm.Server.Session

/-! The server as its host and its clients see it. Sessions are numbered; each holds the PDU size it was granted
    and all share the memory. The memory lock makes every request and every call of the host one step, so a run
    of the server is a list of events in some order. -/

namespace S7Comm
open Go

structure Server where
  mem : Memory
  /-- The granted PDU size of each session. -/
  pduSize : Nat → Nat

/-- A server with no areas, whose sessions start with the configured PDU size. -/
def Server.new (cfg : ServerConfig) : Server := ⟨.empty, fun _ => cfg.maxPDUSize⟩

inductive Event where
  | request (session : Nat) (req : Bytes)
  | register (area : Area) (db : Int) (data : Bytes) (readOnly : Bool)
  | read (area : Area) (db start size : Int)
  | write (area : Area) (db start : Int) (data : Bytes)
  deriving Repr, DecidableEq

/-- Whether the event is a call of the host. -/
def Event.isHost : Event → Bool
  | request _ _ => false
  | _ => true

namespace Server

def session (srv : Server) (id : Nat) : Session := ⟨srv.mem, srv.pduSize id⟩

/-- The server after an event; what the event returns is left out. -/
def step (cfg : ServerConfig) (srv : Server) : Event → Server
  | .request id req =>
    let s := (handle cfg req (srv.session id)).2
    ⟨s.mem, Function.update srv.pduSize id s.pduSize⟩
  | .register area db data readOnly => { srv with mem := (Memory.register area db data readOnly srv.mem).2 }
  | .read _ _ _ _ => srv
  | .write area db start data => { srv with mem := (Memory.write area db start data srv.mem).2 }

def run (cfg : ServerConfig) (srv : Server) (events : List Event) : Server := events.foldl (step cfg) srv

end Server
end S7Comm
