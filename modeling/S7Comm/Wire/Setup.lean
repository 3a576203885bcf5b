import S7Comm.Wire.Header

/-! The client side of Setup Communication (`wire/pdu_setup.go`), and the TSAP that names a rack and a slot
    (`wire/cotp.go`). -/

namespace S7Comm
open Go

/-! ### Setup Communication -/

def encodeSetupCommRequest (pduRef : UInt16) (maxAmqCalling maxAmqCalled pduSize : Int) : Res Bytes := do
  let calling ← checkedUint16 "max AmQ calling" maxAmqCalling
  let called ← checkedUint16 "max AmQ called" maxAmqCalled
  let size ← checkedUint16 "PDU size" pduSize
  encodeMessage rosctrJob pduRef ([funcSetupComm, 0] ++ putUint16 calling ++ putUint16 called ++ putUint16 size) []

structure SetupCommResponse where
  maxAmqCalling : Nat
  maxAmqCalled : Nat
  pduSize : Nat
  deriving Repr, DecidableEq

def parseSetupCommResponse (data : Bytes) : Res SetupCommResponse := do
  if data.length < 8 then
    .fail (.s7 { message := "setup comm response too short" })
  else if (← indexAt data 0) ≠ funcSetupComm then
    .fail (.s7 { message := "not a setup comm response" })
  else
    let calling ← wordAt data 2
    let called ← wordAt data 4
    let size ← wordAt data 6
    pure ⟨calling.toNat, called.toNat, size.toNat⟩

/-! ### TSAPs -/

/-- The low byte of a TSAP: the slot in bits 0 to 4, the rack in bits 5 to 7. -/
def encodeRackSlotTSAP (rack slot : UInt8) : UInt8 := (rack &&& 0x07) <<< 5 ||| (slot &&& 0x1F)

def validateRackSlot (rack slot : Int) : Res Unit :=
  if rack < 0 ∨ rack > 7 then .fail (.text s!"rack must be 0..7, got {rack}")
  else if slot < 0 ∨ slot > 31 then .fail (.text s!"slot must be 0..31, got {slot}")
  else .ok ()

/-- The TSAP of a connection type, a rack and a slot. -/
def buildTSAP (connType rack slot : Int) : Res UInt16 := do
  validateRackSlot rack slot
  if connType < 0 ∨ connType > 0xFF then
    .fail (.text s!"connection type must be 0..255, got {connType}")
  else
    let low := encodeRackSlotTSAP (UInt8.ofNat (rack.toNat &&& 0x07)) (UInt8.ofNat (slot.toNat &&& 0x1F))
    pure ((UInt16.ofNat connType.toNat) <<< 8 ||| low.toUInt16)

end S7Comm
