import S7Comm.Lib.Bytes
import S7Comm.Wire.Header

/-! The values of a PLC in its memory (`model/codec/codec.go`). A string is the bytes of it, and a REAL the 32 bits of
    its IEEE 754 form. -/

namespace S7Comm
open Go

/-! ### Decoding -/

def decodeByte (data : Bytes) : UInt8 := if data.length < 1 then 0 else data.getD 0 0

def decodeWord (data : Bytes) : UInt16 := if data.length < 2 then 0 else be16 (data.getD 0 0) (data.getD 1 0)

/-- `int16(b)`. -/
def int16Of (b : UInt8) : Int16 := b.toUInt16.toInt16

def decodeInt (data : Bytes) : Int16 :=
  if data.length < 2 then 0 else int16Of (data.getD 0 0) <<< 8 ||| int16Of (data.getD 1 0)

def decodeDWord (data : Bytes) : UInt32 :=
  if data.length < 4 then 0 else be32 (data.getD 0 0) (data.getD 1 0) (data.getD 2 0) (data.getD 3 0)

/-- `int32(b)`. -/
def int32Of (b : UInt8) : Int32 := b.toUInt32.toInt32

def decodeDInt (data : Bytes) : Int32 :=
  if data.length < 4 then 0
  else
    int32Of (data.getD 0 0) <<< 24 ||| int32Of (data.getD 1 0) <<< 16 ||| int32Of (data.getD 2 0) <<< 8 |||
      int32Of (data.getD 3 0)

/-- The number of chars that a string states, cut to the bytes there are. -/
def decodeString (data : Bytes) : Res Bytes := do
  if data.length < 2 then pure []
  else
    let actualLen := (← indexAt data 1).toNat
    let actualLen := if 2 + actualLen > data.length then data.length - 2 else actualLen
    sliceOf data 2 (2 + actualLen)

/-! ### Encoding -/

def encodeBool (val : Bool) : Bytes := if val then [0x01] else [0x00]

def encodeByte (val : UInt8) : Bytes := [val]

def encodeWord (val : UInt16) : Bytes := putUint16 val

/-- `byte(val)` of a 16-bit and of a 32-bit integer. -/
def byteOf16 (val : Int16) : UInt8 := val.toUInt16.toUInt8

def byteOf32 (val : Int32) : UInt8 := val.toUInt32.toUInt8

def encodeInt (val : Int16) : Bytes := [byteOf16 (val >>> 8 &&& 0xFF), byteOf16 (val &&& 0xFF)]

def encodeDWord (val : UInt32) : Bytes := putUint32 val

def encodeDInt (val : Int32) : Bytes :=
  [byteOf32 (val >>> 24 &&& 0xFF), byteOf32 (val >>> 16 &&& 0xFF), byteOf32 (val >>> 8 &&& 0xFF), byteOf32 (val &&& 0xFF)]

section Real
variable {F : Type} (ieee : UInt32 ≃ F)

/-- A REAL; `ieee` is `math.Float32frombits`, with `math.Float32bits` as its inverse. -/
def decodeReal (data : Bytes) : F := ieee (decodeDWord data)

def encodeReal (val : F) : Bytes := encodeDWord (ieee.symm val)

end Real

/-- The length of a string with its header, between 2 and 256. -/
def stringSize (maxLen : Int) : Nat := (min (max maxLen 2) 256).toNat

def encodeString (val : Bytes) (maxLen : Int) : Bytes :=
  let maxChars := stringSize maxLen - 2
  let n := min val.length maxChars
  [UInt8.ofNat maxChars, UInt8.ofNat n] ++ val.take n ++ List.replicate (maxChars - n) 0

end S7Comm
