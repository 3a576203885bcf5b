import S7Comm.Capture.File
import S7Comm.Capture.Stream
import S7Comm.Lib.IPNet

/-! Frames of recorded traffic (`internal/capture/capture.go`): the Ethernet, IPv4 and TCP headers of a frame, and the
    connections that the frames to and from the S7 port make. -/

namespace S7Comm.Capture
open Go

/-- The ISO-on-TCP port. -/
def s7Port : UInt16 := 102

def linkEthernet : UInt32 := 1
def etherIPv4 : UInt16 := 0x0800
def etherVLAN : UInt16 := 0x8100
def protoTCP : UInt8 := 6

/-! ### Headers

The frames that are not IPv4 and TCP, or whose lengths do not fit, are ignored: `none`. -/

/-- What a frame carries, and as what; a VLAN tag is taken off. -/
def etherPayload (d : Bytes) : Res (Option (UInt16 × Bytes)) := do
  if d.length < 14 then
    pure none
  else
    let etherType ← wordAt d 12
    let d ← sliceOf d 14 d.length
    if etherType = etherVLAN then
      if d.length < 4 then
        pure none
      else
        let etherType ← wordAt d 2
        let d ← sliceOf d 4 d.length
        pure (some (etherType, d))
    else
      pure (some (etherType, d))

/-- The address at `d[i:i+4]`, as `%d.%d.%d.%d` prints it. -/
def addressAt (d : Bytes) (i : Nat) : Res String := do
  let a ← indexAt d i
  let b ← indexAt d (i + 1)
  let c ← indexAt d (i + 2)
  let e ← indexAt d (i + 3)
  pure (ipString [a, b, c, e])

/-- What an IPv4 packet carries: the two addresses, and the TCP packet. -/
def ipv4Payload (d : Bytes) : Res (Option (String × String × Bytes)) := do
  if d.length < 20 then
    pure none
  else
    let first ← indexAt d 0
    if first >>> 4 ≠ 4 then
      pure none
    else
      let ihl := (first &&& 0x0F).toNat * 4
      let total := (← wordAt d 2).toNat
      if ihl < 20 ∨ total < ihl ∨ total > d.length then
        pure none
      else
        let proto ← indexAt d 9
        if proto ≠ protoTCP then
          pure none
        else
          let fragment ← wordAt d 6
          if fragment &&& 0x3FFF ≠ 0 then
            .fail (.text "fragmented IPv4 is not supported")
          else
            let src ← addressAt d 12
            let dst ← addressAt d 16
            let t ← sliceOf d ihl total
            pure (some (src, dst, t))

/-- What `frame` looks at in a TCP packet. -/
structure TCPPacket where
  src : String
  dst : String
  sport : UInt16
  dport : UInt16
  seq : UInt32
  syn : Bool
  payload : Bytes
  deriving Repr, DecidableEq

def tcpHeader (src dst : String) (t : Bytes) : Res (Option TCPPacket) := do
  if t.length < 20 then
    pure none
  else
    let sport ← wordAt t 0
    let dport ← wordAt t 2
    let thl := ((← indexAt t 12) >>> 4).toNat * 4
    if thl < 20 ∨ thl > t.length then
      pure none
    else
      let seq ← dwordAt t 4
      let flags ← indexAt t 13
      let payload ← sliceOf t thl t.length
      pure (some ⟨src, dst, sport, dport, seq, flags &&& 0x02 != 0, payload⟩)

/-- The TCP packet of an Ethernet frame. -/
def tcpPacket (data : Bytes) : Res (Option TCPPacket) := do
  match ← etherPayload data with
  | none => pure none
  | some (etherType, d) =>
    if etherType ≠ etherIPv4 then
      pure none
    else
      match ← ipv4Payload d with
      | none => pure none
      | some (src, dst, t) => tcpHeader src dst t

/-! ### Connections -/

structure ConnKey where
  client : String
  server : String
  deriving Repr, DecidableEq

/-- The connection of a packet, and whether it goes to the server; `none` is a packet of other traffic. -/
def TCPPacket.place (p : TCPPacket) : Option (ConnKey × Bool) :=
  if p.dport = s7Port then some (⟨s!"{p.src}:{p.sport}", s!"{p.dst}:{p.dport}"⟩, true)
  else if p.sport = s7Port then some (⟨s!"{p.dst}:{p.dport}", s!"{p.src}:{p.sport}"⟩, false)
  else none

structure Conn where
  key : ConnKey
  firstFrame : Nat
  /-- Client to server. -/
  up : Flow := {}
  /-- Server to client. -/
  down : Flow := {}
  deriving Repr, DecidableEq

/-- The connection with one of its flows changed. -/
def Conn.update (c : Conn) (toServer : Bool) (change : Flow → Flow) : Conn :=
  if toServer then { c with up := change c.up } else { c with down := change c.down }

/-- The connections by their keys. The order in the list is that in which they were seen; it is not part of the map. -/
structure Assembler where
  conns : List Conn := []
  deriving Repr, DecidableEq

/-- Change a flow of the connection with this key, which starts with this frame if it is new. -/
def Assembler.update (a : Assembler) (num : Nat) (key : ConnKey) (toServer : Bool) (change : Flow → Flow) : Assembler :=
  if a.conns.any (·.key == key) then
    { conns := a.conns.map fun c => if c.key = key then c.update toServer change else c }
  else
    { conns := a.conns ++ [Conn.update { key, firstFrame := num } toServer change] }

/-- Take one link-layer frame. -/
def Assembler.frame (a : Assembler) (num : Nat) (p : Packet) : Res Assembler := do
  if p.link ≠ linkEthernet then
    .fail (.text s!"link type {p.link}: only Ethernet is supported")
  else
    match ← tcpPacket p.data with
    | none => pure a
    | some t =>
      match t.place with
      | none => pure a
      | some (key, toServer) => pure (a.update num key toServer fun f => f.frame num t.syn t.seq t.payload)

end S7Comm.Capture
