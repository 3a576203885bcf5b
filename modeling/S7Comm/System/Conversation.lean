import S7Comm.Client.Calls
import S7Comm.Client.Connect
import S7Comm.System.Link

/-! A client of the server over a transport that delivers every TSDU unchanged. The client connects, closes and makes
    calls, in any order. The server takes every TSAP, so every rack and slot leads to the same memory. -/

namespace S7Comm
open Go

/-- The network around the server: a new connection is a new session, as `serveConn` starts it. -/
def linkEnv (cfg : ServerConfig) : Env Unit Link where
  ctxErr w := (none, w)
  wait w := (none, w)
  dialCOTP _ _ w := (.ok (), { session := ⟨w.session.mem, cfg.maxPDUSize⟩ })
  writeTSDU _ := (serverNet cfg).writeTSDU
  readTSDU _ := (serverNet cfg).readTSDU
  close _ w := (none, w)

/-- The network around a server that holds the memory `mem` when a client connects. -/
def heldEnv (mem : Memory) (cfg : ServerConfig) : Env Unit Link :=
  { linkEnv cfg with dialCOTP := fun _ _ _ => (.ok (), { session := ⟨mem, cfg.maxPDUSize⟩ }) }

/-- What a client does next. -/
inductive ClientAction where
  | connect
  | close
  | call (call : ClientCall)

/-- A call that was made: on a connection or without one, what it came to, and the memory of the server before and
    after it. -/
structure Made where
  call : ClientCall
  connected : Bool
  result : Res call.Answer
  before : Memory
  after : Memory

/-- The actions of a client, one after the other. -/
def converse (cfg : ServerConfig) (opts : Options) :
    List ClientAction → ClientSession Unit × Link → List Made × (ClientSession Unit × Link)
  | [], st => ([], st)
  | .connect :: actions, st => converse cfg opts actions (connect (linkEnv cfg) opts st).2
  | .close :: actions, st => converse cfg opts actions (closeSession (linkEnv cfg) st).2
  | .call call :: actions, st =>
    match onClient (linkEnv cfg) opts call.perform st with
    | (result, next) =>
      match converse cfg opts actions next with
      | (made, last) =>
        (⟨call, st.1.conn.isSome, result, st.2.session.mem, next.2.session.mem⟩ :: made, last)

/-- The calls among some actions of a client that is connected or not, each with whether the client is then. -/
def callsOf : (connected : Bool) → List ClientAction → List (ClientCall × Bool)
  | _, [] => []
  | _, .connect :: actions => callsOf true actions
  | _, .close :: actions => callsOf false actions
  | connected, .call call :: actions => (call, connected) :: callsOf connected actions

/-- Whether a client is connected after some actions. -/
def connectedAfter : (connected : Bool) → List ClientAction → Bool
  | connected, [] => connected
  | _, .connect :: actions => connectedAfter true actions
  | _, .close :: actions => connectedAfter false actions
  | connected, .call _ :: actions => connectedAfter connected actions

/-- Each call finds the memory as the one before it has left it. -/
def Chained : Memory → List Made → Memory → Prop
  | mem, [], mem' => mem' = mem
  | mem, m :: made, mem' => m.before = mem ∧ Chained m.after made mem'

end S7Comm
