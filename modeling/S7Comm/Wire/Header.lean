import S7Comm.Wire.ParamError

/-! The S7 header (`wire/s7.go`): message types, function codes, and the framing of a parameter and a data
    section. An Ack or Ack-Data header has two more bytes, the error class and code. -/

namespace S7Comm
open Go

def rosctrJob : UInt8 := 0x01
def rosctrAck : UInt8 := 0x02
def rosctrAckData : UInt8 := 0x03
def rosctrUserdata : UInt8 := 0x07

def funcSetupComm : UInt8 := 0xF0
def funcReadVar : UInt8 := 0x04
def funcWriteVar : UInt8 := 0x05

def s7HeaderSize : Nat := 10

/-- The header of an Ack-Data PDU, with error class and error code. -/
def ackDataHeaderSize : Nat := s7HeaderSize + 2

structure S7Header where
  protocolID : UInt8
  rosctr : UInt8
  redundancyID : UInt16
  pduRef : UInt16
  paramLength : UInt16
  dataLength : UInt16
  errorClass : UInt8
  errorCode : UInt8
  deriving Repr, DecidableEq

/-- `v` for a 16-bit wire field. -/
def checkedUint16 (name : String) (v : Int) : Res UInt16 :=
  if v < 0 ∨ v > 65535 then .fail (Sentinel.outOfRange.wrapped s!"{name} {v} not in 0..65535")
  else .ok (UInt16.ofNat v.toNat)

def s7Header (rosctr : UInt8) (pduRef paramLen dataLen : UInt16) : Bytes :=
  [0x32, rosctr] ++ putUint16 0 ++ putUint16 pduRef ++ putUint16 paramLen ++ putUint16 dataLen

def encodeS7Header (rosctr : UInt8) (pduRef : UInt16) (paramLen dataLen : Int) : Res Bytes := do
  let p ← checkedUint16 "parameter length" paramLen
  let d ← checkedUint16 "data length" dataLen
  pure (s7Header rosctr pduRef p d)

def encodeMessage (rosctr : UInt8) (pduRef : UInt16) (param data : Bytes) : Res Bytes := do
  let header ← encodeS7Header rosctr pduRef param.length data.length
  pure (header ++ param ++ data)

def encodeAckData (pduRef : UInt16) (errClass errCode : UInt8) (param data : Bytes) : Res Bytes := do
  let header ← encodeS7Header rosctrAckData pduRef param.length data.length
  pure (header ++ [errClass, errCode] ++ param ++ data)

/-- The error class and code of an Ack or Ack-Data header, and the size of the header. -/
def ackError (data : Bytes) (rosctr : UInt8) : Res (UInt8 × UInt8 × Nat) := do
  if rosctr = rosctrAckData ∨ rosctr = rosctrAck then
    if data.length < s7HeaderSize + 2 then
      .fail (.sentinel .shortS7AckHeader)
    else
      let errorClass ← indexAt data 10
      let errorCode ← indexAt data 11
      pure (errorClass, errorCode, s7HeaderSize + 2)
  else
    pure (0, 0, s7HeaderSize)

/-- The header and what follows it. -/
def parseS7Header (data : Bytes) : Res (S7Header × Bytes) := do
  if data.length < s7HeaderSize then
    .fail (.sentinel .shortS7Header)
  else
    let protocolID ← indexAt data 0
    if protocolID ≠ 0x32 then
      .fail (Sentinel.invalidS7ProtocolID.wrapped ("got 0x" ++ hexByte protocolID))
    else
      let rosctr ← indexAt data 1
      let redundancyID ← wordAt data 2
      let pduRef ← wordAt data 4
      let paramLength ← wordAt data 6
      let dataLength ← wordAt data 8
      let (errorClass, errorCode, offset) ← ackError data rosctr
      let rest ← sliceOf data offset data.length
      let need := paramLength.toNat + dataLength.toNat
      if rest.length < need then
        .fail (Sentinel.s7PayloadLength.wrapped s!"need {need}, got {rest.length}")
      else
        pure (⟨protocolID, rosctr, redundancyID, pduRef, paramLength, dataLength, errorClass, errorCode⟩, rest)

end S7Comm
