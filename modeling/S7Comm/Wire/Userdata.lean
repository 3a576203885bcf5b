import S7Comm.Wire.Header

/-! User data exchanges (`wire/pdu_szl.go`): requests, follow-ups and SZL reads, and the two sections of their
    answers. -/

namespace S7Comm
open Go

def userdataReq : UInt8 := 0x11
def userdataRes : UInt8 := 0x12
def userdataTypeRequest : UInt8 := 0x40
def userdataGroupBlock : UInt8 := 0x03
def userdataGroupCPU : UInt8 := 0x04
def userdataSZL : UInt8 := 0x01

def szlModuleID : UInt16 := 0x0011
def szlComponentID : UInt16 := 0x001C
def szlCPUState : UInt16 := 0x0424
def szlProtectionInfo : UInt16 := 0x0232
def szlDiagBuffer : UInt16 := 0x00A0

/-! ### Requests -/

def encodeUserdataRequest (pduRef : UInt16) (group subfunc : UInt8) (data : Bytes) : Res Bytes :=
  encodeMessage rosctrUserdata pduRef
    [0x00, 0x01, 0x12, 0x04, userdataReq, userdataTypeRequest ||| (group &&& 0x0F), subfunc, 0x00] data

/-- The bytes of an encoder whose error the caller drops; nil is the empty string. -/
def encoded : Res Bytes → Bytes
  | .ok msg => msg
  | _ => []

/-- A request whose data section has a fixed size, so that it can always be encoded. -/
def userdataRequest (pduRef : UInt16) (group subfunc : UInt8) (data : Bytes) : Bytes :=
  encoded (encodeUserdataRequest pduRef group subfunc data)

/-- The parameter section of a follow-up. -/
def followUpParam (group subfunc seq : UInt8) : Bytes :=
  [0x00, 0x01, 0x12, 0x08, userdataRes, userdataTypeRequest ||| (group &&& 0x0F), subfunc, seq, 0x00, 0x00, 0x00, 0x00]

/-- The request for the packet after the one with sequence number `seq`. -/
def encodeUserdataFollowUp (pduRef : UInt16) (group subfunc seq : UInt8) : Bytes :=
  encoded (encodeMessage rosctrUserdata pduRef (followUpParam group subfunc seq) [retCodeNotAvailable, 0x00, 0x00, 0x00])

def encodeSZLRequest (pduRef szlID szlIndex : UInt16) : Bytes :=
  userdataRequest pduRef userdataGroupCPU userdataSZL
    ([retCodeSuccess, 0x09] ++ putUint16 4 ++ putUint16 szlID ++ putUint16 szlIndex)

/-! ### Answers -/

/-- The parameter section of an answer. -/
structure UserdataParam where
  group : UInt8
  subfunction : UInt8
  sequence : UInt8
  /-- More data follows. -/
  more : Bool
  errorCode : UInt16
  deriving Repr, DecidableEq

def parseUserdataParam (param : Bytes) : Res UserdataParam := do
  let refusal : Res UserdataParam :=
    .fail (.s7 { message := s!"user data response parameter of {param.length} bytes is not 00 01 12 08" })
  if param.length < 12 then refusal
  else if (← indexAt param 0) ≠ 0x00 ∨ (← indexAt param 1) ≠ 0x01 ∨ (← indexAt param 2) ≠ 0x12 ∨
      (← indexAt param 3) ≠ 0x08 then refusal
  else
    let group ← indexAt param 5
    let subfunction ← indexAt param 6
    let sequence ← indexAt param 7
    let last ← indexAt param 9
    let errorCode ← wordAt param 10
    pure { group := group &&& 0x0F, subfunction, sequence, more := last != 0x00, errorCode }

/-- The payload of a data section, after its return code, transport size and length. -/
def parseUserdataData (data : Bytes) : Res Bytes := do
  if data.length < 4 then
    .fail (.s7 { message := "user data section too short" })
  else
    match returnCodeError (← indexAt data 0) with
    | some err => .fail err
    | none =>
      let n := (← wordAt data 2).toNat
      if 4 + n > data.length then
        .fail (.s7 { message := s!"user data length {n} past the {data.length - 4} bytes received" })
      else
        sliceOf data 4 (4 + n)

structure SZLResponse where
  szlID : UInt16
  szlIndex : UInt16
  dataLength : UInt16
  data : Bytes
  deriving Repr, DecidableEq

/-- The part of `ParseSZLResponse` after the return code. -/
def parseSZLList (data : Bytes) : Res SZLResponse := do
  if data.length < 8 then
    .fail (.s7 { message := "SZL response too short" })
  else
    let dataLength ← wordAt data 2
    let stop := 4 + dataLength.toNat
    if stop < 8 then
      .fail (.s7 { message := "SZL data length too short" })
    else if stop > data.length then
      .fail (.s7 { message := "SZL data length mismatch" })
    else
      let szlID ← wordAt data 4
      let szlIndex ← wordAt data 6
      let list ← sliceOf data 8 stop
      pure ⟨szlID, szlIndex, dataLength, list⟩

/-- The first packet of an SZL list. A refusal carries only four bytes. -/
def parseSZLResponse (data : Bytes) : Res SZLResponse := do
  if data.length > 0 then
    match returnCodeError (← indexAt data 0) with
    | some err => .fail err
    | none => parseSZLList data
  else
    parseSZLList data

end S7Comm
