import S7Comm.Client.ReadWrite

/-! Single bits (`client/bit.go`): native BIT items, not a read and a write of the byte around them. -/

namespace S7Comm
open Go

structure BitAddress where
  area : UInt8
  dbNumber : Int
  byteOffset : Int
  bitOffset : Int
  deriving Repr, DecidableEq

/-- The address for the codec. -/
def BitAddress.s7Any (addr : BitAddress) : S7AnyBitAddress :=
  ⟨addr.area, addr.dbNumber, addr.byteOffset, addr.bitOffset⟩

def validateBitAddress (addr : BitAddress) : Res Unit :=
  if addr.byteOffset < 0 then .fail (.validation s!"byte offset must be >= 0, got {addr.byteOffset}")
  else if addr.bitOffset < 0 ∨ addr.bitOffset > 7 then
    .fail (.validation s!"bit offset must be 0..7, got {addr.bitOffset}")
  else if addr.area = areaDB ∧ addr.dbNumber < 0 then
    .fail (.validation s!"DB number must be >= 0, got {addr.dbNumber}")
  else do
    asValidation (validateS7AnyBitAddress { addr.s7Any with area := 0 })
    asValidation (validateArea addr.area)

/-- What `ReadBit` makes of an answer: its only item, decoded. -/
def bitAnswer (param data : Bytes) : Res Bool :=
  match parseReadVarResponse param data with
  | .panic => .panic
  | .fail err =>
    let cause := GoError.join err (.sentinel .protocolFailure)
    .fail (.wrap ("parse bit read response: " ++ cause.error) cause)
  | .ok [item] =>
    match returnCodeError item.returnCode with
    | some err => .fail err
    | none =>
      match decodeAsBit item with
      | .fail err =>
        let cause := GoError.join err (.sentinel .protocolFailure)
        .fail (.wrap ("decode bit: " ++ cause.error) cause)
      | r => r
  | .ok items =>
    .fail (.wrap (s!"bit read: expected 1 item, got {items.length}: " ++ Sentinel.protocolFailure.text)
      (.sentinel .protocolFailure))

section Bits
variable {σ : Type} (net : Net σ) (addr : BitAddress)

/-- The checks before a bit request: the address, the connection and the context. -/
def bitGate : ClientM σ Unit := do
  let _ ← validateBitAddress addr
  let (c, _) ← Eff.get
  if !c.connected then Eff.fail (.sentinel .notConnected) else netErr net.ctxErr

def readBit : ClientM σ Bool := do
  bitGate net addr
  let ref ← nextPDURef
  let req ← asValidation (encodeReadVarBitRequest ref addr.s7Any)
  let (param, data) ← sendReceive net req ref
  bitAnswer param data

def writeBit (value : Bool) : ClientM σ Unit := do
  bitGate net addr
  let ref ← nextPDURef
  let req ← asValidation (encodeWriteVarBitRequest ref addr.s7Any value)
  let (param, respData) ← sendReceive net req ref
  parseWriteVarResponse param respData

end Bits

/-- The bit of a byte string that `model/codec` decodes; a bit outside of it is false. -/
def decodeBool (data : Bytes) (bit : Int) : Bool :=
  if bit < 0 then false
  else if data.length = 0 then false
  else
    let byteOffset := bit.toNat / 8
    let bitOffset := bit.toNat % 8
    if byteOffset ≥ data.length then false
    else data.getD byteOffset 0 &&& (1 <<< UInt8.ofNat bitOffset) != 0

end S7Comm
