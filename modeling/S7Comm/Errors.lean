import S7Comm.Lib.Bytes

/-! The errors of the packages `wire`, `client` and `server`, with the texts they carry. An error is a
    tree: `fmt.Errorf` with `%w` puts a text over a cause, `errors.Join` holds two errors, and
    `errors.Is` and `errors.As` look through both. -/

namespace S7Comm
open Go

/-- The error values that code compares with `errors.Is`. -/
inductive Sentinel where
  -- wire
  | malformedRequest | shortS7Header | invalidS7ProtocolID | shortS7AckHeader | s7PayloadLength
  | truncatedItemHeader | truncatedItemPayload | unknownBlockType | outOfRange
  -- client
  | notConnected | protocolFailure | requestExceedsPDU
  -- server
  | unknownArea | areaExists | spanOutOfRange
  -- context
  | canceled | deadlineExceeded
  deriving Repr, DecidableEq

def Sentinel.text : Sentinel → String
  | malformedRequest => "malformed S7 request"
  | shortS7Header => "data too short for S7 header"
  | invalidS7ProtocolID => "invalid S7 protocol ID"
  | shortS7AckHeader => "data too short for S7 ack header"
  | s7PayloadLength => "S7 payload shorter than parameter/data lengths"
  | truncatedItemHeader => "read response item header truncated"
  | truncatedItemPayload => "read response item payload truncated or overrun"
  | unknownBlockType => "unknown block type"
  | outOfRange => "value out of range for its wire field"
  | notConnected => "not connected"
  | protocolFailure => "protocol failure"
  | requestExceedsPDU => "request exceeds negotiated PDU size"
  | unknownArea => "s7 server: area not registered"
  | areaExists => "s7 server: area already registered"
  | spanOutOfRange => "s7 server: span outside the area"
  | canceled => "context canceled"
  | deadlineExceeded => "context deadline exceeded"

/-- `wire.S7Error`. The class is zero for an item return code. -/
structure S7Error where
  errClass : UInt8 := 0
  code : UInt8 := 0
  message : String
  deriving Repr, DecidableEq

inductive GoError where
  | sentinel (s : Sentinel)
  | s7 (e : S7Error)
  | validation (message : String)
  | pduRefMismatch (expected got : UInt16)
  | text (message : String)
  /-- A `net.Error`: what the transport returns when the network fails. -/
  | net (timeout : Bool) (message : String)
  | wrap (message : String) (cause : GoError)
  | join (left right : GoError)
  deriving Repr, DecidableEq

/-- A call of these packages. -/
abbrev Res (α : Type) : Type := Outcome GoError α

abbrev indexAt {α : Type} (b : List α) (i : Nat) : Res α := index b i

abbrev sliceOf {α : Type} (b : List α) (lo hi : Nat) : Res (List α) := slice b lo hi

abbrev wordAt (b : Bytes) (i : Nat) : Res UInt16 := uint16At b i

abbrev dwordAt (b : Bytes) (i : Nat) : Res UInt32 := uint32At b i

theorem indexAt_of_lt {α : Type} {b : List α} {i : Nat} (h : i < b.length) : indexAt b i = .ok b[i] := index_of_lt h

theorem sliceOf_of_le {α : Type} {b : List α} {lo hi : Nat} (h₁ : lo ≤ hi) (h₂ : hi ≤ b.length) :
    sliceOf b lo hi = .ok ((b.drop lo).take (hi - lo)) := slice_of_le h₁ h₂

theorem wordAt_of_le {b : Bytes} {i : Nat} (h : i + 2 ≤ b.length) :
    wordAt b i = .ok (be16 (b.getD i 0) (b.getD (i + 1) 0)) := uint16At_of_le h

theorem dwordAt_of_le {b : Bytes} {i : Nat} (h : i + 4 ≤ b.length) : ∃ v, dwordAt b i = .ok v := uint32At_of_le h

/-- `fmt.Errorf("%w: ...", s, ...)`. -/
def Sentinel.wrapped (s : Sentinel) (detail : String) : GoError := .wrap (s.text ++ ": " ++ detail) (.sentinel s)

namespace GoError

/-- `errors.Is`. -/
def is (e : GoError) (s : Sentinel) : Bool :=
  match e with
  | sentinel t => t == s
  | wrap _ c => c.is s
  | join l r => l.is s || r.is s
  | _ => false

/-- Whether `errors.As` finds a `*wire.S7Error`. -/
def isS7 : GoError → Bool
  | s7 _ => true
  | wrap _ c => c.isS7
  | join l r => l.isS7 || r.isS7
  | _ => false

/-- Whether `errors.As` finds a `*client.PDURefMismatchError`. -/
def isPDURefMismatch : GoError → Bool
  | pduRefMismatch _ _ => true
  | wrap _ c => c.isPDURefMismatch
  | join l r => l.isPDURefMismatch || r.isPDURefMismatch
  | _ => false

/-- The `Timeout()` of the first `net.Error` that `errors.As` finds; a passed deadline is one too. -/
def netTimeout? : GoError → Option Bool
  | net t _ => some t
  | sentinel .deadlineExceeded => some true
  | wrap _ c => c.netTimeout?
  | join l r => l.netTimeout? <|> r.netTimeout?
  | _ => none

end GoError

/-! ### Texts -/

def hexDigit (n : UInt8) : Char := "0123456789ABCDEF".toList.getD n.toNat '0'

/-- Two hexadecimal digits, as `%02X` prints a byte. -/
def hexByte (b : UInt8) : String := String.ofList [hexDigit (b >>> 4), hexDigit (b &&& 0x0F)]

/-- Four hexadecimal digits, as `%04X` prints a 16-bit value. -/
def hexWord (v : UInt16) : String := hexByte (v >>> 8).toUInt8 ++ hexByte v.toUInt8

def S7Error.error (e : S7Error) : String :=
  if e.message ≠ "" then e.message
  else "S7 error: class=0x" ++ hexByte e.errClass ++ ", code=0x" ++ hexByte e.code

def GoError.error : GoError → String
  | sentinel s => s.text
  | s7 e => e.error
  | validation m => m
  | pduRefMismatch expected got => s!"S7 response PDU ref mismatch: expected {expected}, got {got}"
  | text m => m
  | net _ m => m
  | wrap m _ => m
  | join l r => l.error ++ "\n" ++ r.error

/-! ### Item return codes -/

def retCodeSuccess : UInt8 := 0xFF
def retCodeHWFault : UInt8 := 0x01
def retCodeAccessFault : UInt8 := 0x03
def retCodeAddressFault : UInt8 := 0x05
def retCodeDataTypeFault : UInt8 := 0x06
def retCodeDataSizeFault : UInt8 := 0x07
def retCodeBusy : UInt8 := 0x09
def retCodeNotAvailable : UInt8 := 0x0A

def itemReturnCodeString (code : UInt8) : String :=
  if code = retCodeSuccess then "success"
  else if code = retCodeHWFault then "hardware fault"
  else if code = retCodeAccessFault then "access denied"
  else if code = retCodeAddressFault then "invalid address"
  else if code = retCodeDataTypeFault then "data type not supported"
  else if code = retCodeDataSizeFault then "data size mismatch"
  else if code = retCodeBusy then "object busy"
  else if code = retCodeNotAvailable then "object not available"
  else "return code 0x" ++ hexByte code

/-- `none` is the nil error. -/
def returnCodeError (code : UInt8) : Option GoError :=
  if code = retCodeSuccess then none else some (.s7 { code, message := itemReturnCodeString code })

/-! ### Header errors -/

def errClassNoError : UInt8 := 0x00
def errClassApp : UInt8 := 0x81
def errClassObject : UInt8 := 0x82
def errClassResource : UInt8 := 0x83
def errClassSupplies : UInt8 := 0x85
def errClassAccess : UInt8 := 0x87

def headerErrorString (cls code : UInt8) : String :=
  if cls = errClassNoError then
    if code = 0 then "" else "header error class=0x" ++ hexByte cls ++ " code=0x" ++ hexByte code
  else if cls = errClassAccess then
    if code = 0x00 then "no access rights"
    else if code = 0x01 then "invalid address"
    else if code = 0x04 then "invalid data type"
    else "access error code=0x" ++ hexByte code
  else if cls = errClassObject then "object does not exist"
  else if cls = errClassResource then "resource busy"
  else "S7 error class=0x" ++ hexByte cls ++ " code=0x" ++ hexByte code

def newS7Error (cls code : UInt8) : S7Error := { errClass := cls, code, message := headerErrorString cls code }

end S7Comm
