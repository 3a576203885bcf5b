import S7Comm.Wire.Vars

/-! Typed decoding of the items of a Read Var answer (`wire/pdu_rw.go`). -/

namespace S7Comm
open Go

/-- The payload of a successful item of at least `need` bytes. -/
def decodeSuccessItem (item : ReadVarItem) (need : Nat) : Res Bytes :=
  if item.returnCode ≠ retCodeSuccess then .fail (.s7 { message := "item not success, cannot decode" })
  else if item.data.length < need then
    .fail (.s7 { message := s!"item payload too short: need {need}, got {item.data.length}" })
  else .ok item.data

def decodeAsByte (item : ReadVarItem) : Res UInt8 := do indexAt (← decodeSuccessItem item 1) 0

def decodeAsWord (item : ReadVarItem) : Res UInt16 := do uint16 (← decodeSuccessItem item 2)

def decodeAsDWord (item : ReadVarItem) : Res UInt32 := do uint32 (← decodeSuccessItem item 4)

def decodeAsInt (item : ReadVarItem) : Res Int16 := do
  let data ← decodeSuccessItem item 2
  pure ((← indexAt data 0).toUInt16.toInt16 <<< 8 ||| (← indexAt data 1).toUInt16.toInt16)

def decodeAsDInt (item : ReadVarItem) : Res Int32 := do
  let data ← decodeSuccessItem item 4
  pure ((← indexAt data 0).toUInt32.toInt32 <<< 24 ||| (← indexAt data 1).toUInt32.toInt32 <<< 16 |||
    (← indexAt data 2).toUInt32.toInt32 <<< 8 ||| (← indexAt data 3).toUInt32.toInt32)

/-- A REAL; `ieee` is `math.Float32frombits`. -/
def decodeAsReal {F : Type} (ieee : UInt32 ≃ F) (item : ReadVarItem) : Res F := do
  pure (ieee (← uint32 (← decodeSuccessItem item 4)))

end S7Comm
