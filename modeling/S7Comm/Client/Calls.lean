import S7Comm.Client.Bit
import S7Comm.Client.Blocks
import S7Comm.Client.RangeScan
import S7Comm.Client.SZL
import S7Comm.Client.Upload

/-! The calls that a connected client offers, as data, so that a conversation is a list of calls. -/

namespace S7Comm
open Go

inductive ClientCall where
  | readArea (addr : Address)
  | writeArea (addr : Address) (data : Bytes)
  | readBit (addr : BitAddress)
  | writeBit (addr : BitAddress) (value : Bool)
  | identify
  | getCPUState
  | getProtectionLevel
  | readDiagBufferRaw
  | readDiagBuffer
  | listBlocks (bt : UInt8)
  | blockCounts
  | listAllBlocks
  | getBlockInfo (bt : UInt8) (num : Int)
  | uploadBlock (bt : UInt8) (num : Int)
  | probeReadableRanges (fuel : Nat) (req : RangeProbeRequest)

namespace ClientCall

/-- What a call returns when it does not fail. -/
def Answer : ClientCall → Type
  | readArea _ => ReadResult
  | writeArea _ _ => Unit
  | readBit _ => Bool
  | writeBit _ _ => Unit
  | identify => Option DeviceInfo × Option GoError
  | getCPUState => CPUState
  | getProtectionLevel => ProtectionLevel
  | readDiagBufferRaw => Bytes
  | readDiagBuffer => Option DiagBuffer × Option GoError
  | listBlocks _ => List BlockInfo
  | blockCounts => List (UInt8 × Nat)
  | listAllBlocks => List BlockInfo × List GoError
  | getBlockInfo _ _ => BlockInfo × Option GoError
  | uploadBlock _ _ => BlockData
  | probeReadableRanges _ _ => Option (RangeProbeResult × Option GoError)

def perform {σ : Type} (net : Net σ) : (call : ClientCall) → ClientM σ call.Answer
  | readArea addr => S7Comm.readArea net addr
  | writeArea addr data => S7Comm.writeArea net addr data
  | readBit addr => S7Comm.readBit net addr
  | writeBit addr value => S7Comm.writeBit net addr value
  | identify => S7Comm.identify net
  | getCPUState => S7Comm.getCPUState net
  | getProtectionLevel => S7Comm.getProtectionLevel net
  | readDiagBufferRaw => S7Comm.readDiagBufferRaw net
  | readDiagBuffer => S7Comm.readDiagBuffer net
  | listBlocks bt => S7Comm.listBlocks net bt
  | blockCounts => Client.blockCounts net
  | listAllBlocks => S7Comm.listAllBlocks net
  | getBlockInfo bt num => S7Comm.getBlockInfo net bt num
  | uploadBlock bt num => S7Comm.uploadBlock net bt num
  | probeReadableRanges fuel req => S7Comm.probeReadableRanges net fuel req

end ClientCall
end S7Comm
