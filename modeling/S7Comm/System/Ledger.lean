import S7Comm.Client.Discover
import S7Comm.Client.Probe
import S7Comm.System.Conversation

/-! The connections of a client, counted. Every connection that is dialed gets a number. A ledger holds the numbers of the
    connections that are open, and notes when one is used or closed that is not open. -/

namespace S7Comm
open Go

structure Ledger where
  /-- Connections dialed so far, which is the number of the next one. -/
  dialed : Nat := 0
  live : List Nat := []
  sound : Bool := true
  deriving Repr, DecidableEq

namespace Ledger

def dial (l : Ledger) : Ledger := { l with dialed := l.dialed + 1, live := l.dialed :: l.live }

def use (l : Ledger) (n : Nat) : Ledger := if n ∈ l.live then l else { l with sound := false }

def close (l : Ledger) (n : Nat) : Ledger :=
  if n ∈ l.live then { l with live := l.live.erase n } else { l with sound := false }

/-- The only connection that is open is the one given, and nothing was used or closed that was not open. -/
structure Holds (l : Ledger) (conn : Option Nat) : Prop where
  sound : l.sound = true
  live : l.live = conn.toList
  numbered : ∀ n ∈ conn, n < l.dialed

end Ledger

section Ledgered
variable {γ σ : Type} (env : Env γ σ) (opts : Options)

/-- The network, with a ledger of the connections. Every operation ends as it does without the ledger. -/
def Env.ledgered : Env (Nat × γ) (σ × Ledger) where
  ctxErr st := ((env.ctxErr st.1).1, ((env.ctxErr st.1).2, st.2))
  wait st := ((env.wait st.1).1, ((env.wait st.1).2, st.2))
  dialCOTP localTSAP remoteTSAP st :=
    match env.dialCOTP localTSAP remoteTSAP st.1 with
    | (.ok conn, w) => (.ok (st.2.dialed, conn), (w, st.2.dial))
    | (.error err, w) => (.error err, (w, st.2))
  writeTSDU conn req st := ((env.writeTSDU conn.2 req st.1).1, ((env.writeTSDU conn.2 req st.1).2, st.2.use conn.1))
  readTSDU conn st := ((env.readTSDU conn.2 st.1).1, ((env.readTSDU conn.2 st.1).2, st.2.use conn.1))
  close conn st := ((env.close conn.2 st.1).1, ((env.close conn.2 st.1).2, st.2.close conn.1))

/-- What an action of a client leaves behind. -/
def ClientAction.act : ClientAction → ClientSession γ × σ → ClientSession γ × σ
  | .connect, st => (S7Comm.connect env opts st).2
  | .close, st => (closeSession env st).2
  | .call request, st => (onClient env opts request.perform st).2

end Ledgered

/-- The network of a probe, with a ledger of the COTP connections. -/
def ProbeEnv.ledgered {τ γ σ : Type} (env : ProbeEnv τ γ σ) : ProbeEnv τ (Nat × γ) (σ × Ledger) where
  ctxErr st := ((env.ctxErr st.1).1, ((env.ctxErr st.1).2, st.2))
  wait st := ((env.wait st.1).1, ((env.wait st.1).2, st.2))
  dialContext st := ((env.dialContext st.1).1, ((env.dialContext st.1).2, st.2))
  connectCOTP raw localTSAP remoteTSAP st :=
    match env.connectCOTP raw localTSAP remoteTSAP st.1 with
    | (.ok conn, w) => (.ok (st.2.dialed, conn), (w, st.2.dial))
    | (.error err, w) => (.error err, (w, st.2))
  writeTSDU conn req st := ((env.writeTSDU conn.2 req st.1).1, ((env.writeTSDU conn.2 req st.1).2, st.2.use conn.1))
  readTSDU conn st := ((env.readTSDU conn.2 st.1).1, ((env.readTSDU conn.2 st.1).2, st.2.use conn.1))
  close conn st := ((env.close conn.2 st.1).1, ((env.close conn.2 st.1).2, st.2.close conn.1))

end S7Comm
