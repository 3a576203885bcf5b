import S7Comm.Capture.Frame
import S7Comm.Capture.PDUs

/-! Reading a capture (`internal/capture/capture.go`): the frames of the file go to their connections, and every
    connection becomes a conversation. -/

namespace S7Comm.Capture
open Go

/-- One TCP connection to the S7 port. -/
structure Conversation where
  client : String
  server : String
  connectRequests : Nat
  connectConfirms : Nat
  gaps : Nat
  dropped : Nat
  pdus : List PDU
  deriving Repr, DecidableEq

/-- `fmt.Errorf` with a text and `%w`. -/
def withText {α : Type} (text : String) : Res α → Res α
  | .fail err => .fail (.wrap (text ++ err.error) err)
  | r => r

/-- The PDUs of both directions in the order of the frames that completed them; of one frame, those of the client are
    first. The sort of the source is stable. -/
def mergePDUs (up down : List PDU) : List PDU := (up ++ down).insertionSort fun p q => p.frame ≤ q.frame

def Conn.conversation (c : Conn) : Res Conversation := do
  let (up, gapsUp) ← withText s!"{c.key.client} -> {c.key.server}: " (flowPDUs c.up true)
  let (down, gapsDown) ← withText s!"{c.key.server} -> {c.key.client}: " (flowPDUs c.down false)
  pure ⟨c.key.client, c.key.server, up.cr + down.cr, up.cc + down.cc, gapsUp + gapsDown, up.dropped + down.dropped,
    mergePDUs up.out down.out⟩

/-- The loop of `conversations`. -/
def conversationsOf : List Conn → Res (List Conversation)
  | [] => pure []
  | c :: conns => do
    let conv ← c.conversation
    let rest ← conversationsOf conns
    pure (conv :: rest)

/-- The conversations by the frames that opened them. `conns` are the connections in the order in which the map gives
    them. -/
def conversations (conns : List Conn) : Res (List Conversation) :=
  conversationsOf (conns.insertionSort fun c d => c.firstFrame ≤ d.firstFrame)

/-- The loop over the frames, from number `num` on. -/
def framesFrom (num : Nat) : List Packet → Assembler → Res Assembler
  | [], a => pure a
  | p :: ps, a => do
    let a ← withText s!"frame {num}: " (a.frame num p)
    framesFrom (num + 1) ps a

/-- `Read`. The order in which an iteration over a map gives its entries is not specified; `order` is any. -/
def read (order : List Conn → List Conn) (b : Bytes) : Res (List Conversation) := do
  let frames ← packets b
  let a ← framesFrom 1 frames {}
  conversations (order a.conns)

end S7Comm.Capture
