import S7Comm.Client.Client
import S7Comm.Wire.Userdata

/-! User data calls (`client/szl.go`): a request, and a follow-up for each further packet of its answer. -/

namespace S7Comm
open Go

/-- The further packets that one answer may take. -/
def maxUserdataFollowUps : Nat := 256

section Userdata
variable {σ : Type} (net : Net σ) (group subfunc : UInt8)

/-- One packet: its data section, what its parameter section says and its payload. -/
def userdataPacket (what : String) (req : Bytes) (ref : UInt16) : ClientM σ (Bytes × UserdataParam × Bytes) := do
  let (param, data) ← sendReceive net req ref
  let up ← asProtocolFailure what (parseUserdataParam param)
  let payload ← parseUserdataData data
  pure (data, up, payload)

/-- The loop of `userdata`, with `left` follow-ups to go. -/
def followUps (left : Nat) (up : UserdataParam) (payload : Bytes) : ClientM σ Bytes :=
  if up.more then
    match left with
    | 0 =>
      Eff.fail (.wrap (s!"user data response longer than {maxUserdataFollowUps} packets: " ++
        Sentinel.protocolFailure.text) (.sentinel .protocolFailure))
    | left + 1 => do
      let ref ← nextPDURef
      let (_, up, more) ← userdataPacket net "user data follow-up"
        (encodeUserdataFollowUp ref group subfunc up.sequence) ref
      followUps left up (payload ++ more)
  else
    pure payload

/-- The data section of the first packet, and the payload of all of them. -/
def userdata (req : Bytes) (ref : UInt16) : ClientM σ (Bytes × Bytes) := do
  let (first, up, payload) ← userdataPacket net "user data response" req ref
  let payload ← followUps net group subfunc maxUserdataFollowUps up payload
  pure (first, payload)

end Userdata

/-- The connection with a record of the requests handed to it. -/
def Net.recorded {σ : Type} (net : Net σ) : Net (σ × List Bytes) where
  ctxErr := fun (w, log) => match net.ctxErr w with | (err, w) => (err, (w, log))
  wait := fun (w, log) => match net.wait w with | (err, w) => (err, (w, log))
  writeTSDU req := fun (w, log) => match net.writeTSDU req w with | (err, w) => (err, (w, log ++ [req]))
  readTSDU := fun (w, log) => match net.readTSDU w with | (pdu, w) => (pdu, (w, log))

end S7Comm
