import S7Comm.Client.Connect
import S7Comm.Wire.Userdata

/-! The follow-up of a probe (`client/probe.go`): after the setup of a connection, an SZL request confirms that an S7
    device answers at this rack and slot. -/

namespace S7Comm
open Go

/-- How a rack and a slot are confirmed. The type of the source is a string, so that other values occur. -/
inductive ConfirmationKind where
  | none
  | szl
  | cpuState
  | any
  | other (text : String)
  deriving Repr, DecidableEq

/-- Whether the data section of an answer is an SZL, and what `trySZL` says if it is not. -/
def szlData (dataSlice : Bytes) : Res (Bool × String) :=
  match parseSZLResponse dataSlice with
  | .panic => .panic
  | .fail err => pure (false, err.error)
  | .ok _ => pure (true, "")

/-- The part of `trySZL` after the read. -/
def szlAnswer (s7Data : Bytes) (pduRef : UInt16) : Res (Bool × String) := do
  match parseS7Header s7Data with
  | .panic => .panic
  | .fail err => pure (false, err.error)
  | .ok (hdr, rest) =>
    if hdr.pduRef ≠ pduRef then
      pure (false, s!"PDU ref mismatch: expected {pduRef} got {hdr.pduRef}")
    else if hdr.errorClass ≠ 0 ∨ hdr.errorCode ≠ 0 then
      pure (false, "S7 error 0x" ++ hexByte hdr.errorClass ++ "/0x" ++ hexByte hdr.errorCode)
    else
      let need := hdr.paramLength.toNat + hdr.dataLength.toNat
      if rest.length < need then
        pure (false, "short S7 payload")
      else
        -- As in `responseSections`, the end of the data section is a sum modulo 2^16.
        let dataSlice ← sliceOf rest hdr.paramLength.toNat (hdr.paramLength + hdr.dataLength).toNat
        szlData dataSlice

section FollowUp
variable {γ σ : Type} (env : Env γ σ) (conn : γ) (pduRef : UInt16)

def trySZL (szlID : UInt16) : Eff σ GoError (Bool × String) := do
  match ← Eff.attempt (worldErr (env.writeTSDU conn (encodeSZLRequest pduRef szlID 0))) with
  | .error err => pure (false, err.error)
  | .ok () =>
    match ← Eff.attempt (worldVal (env.readTSDU conn)) with
    | .error err => pure (false, err.error)
    | .ok s7Data => szlAnswer s7Data pduRef

/-- The result: whether the follow-up succeeded, the strategy that worked, and an error message. -/
def runFollowUp (strategy : ConfirmationKind) : Eff σ GoError (Bool × ConfirmationKind × String) := do
  match strategy with
  | .szl =>
    let (ok, errMsg) ← trySZL env conn pduRef szlModuleID
    if ok then pure (true, .szl, "") else pure (false, .none, errMsg)
  | .cpuState =>
    let (ok, errMsg) ← trySZL env conn pduRef szlCPUState
    if ok then pure (true, .cpuState, "") else pure (false, .none, errMsg)
  | .any =>
    let (ok, _) ← trySZL env conn pduRef szlModuleID
    if ok then pure (true, .szl, "")
    else
      let (ok, _) ← trySZL env conn pduRef szlCPUState
      if ok then pure (true, .cpuState, "")
      else
        let (ok, errMsg) ← trySZL env conn pduRef szlProtectionInfo
        if ok then pure (true, .any, "") else pure (false, .none, errMsg)
  | .none | .other _ => pure (false, .none, "no confirmation strategy")

end FollowUp

end S7Comm
