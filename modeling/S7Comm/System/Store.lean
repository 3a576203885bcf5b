import S7Comm.Client.Calls
import S7Comm.Lib.Ends
import S7Comm.Server.Meaning
import S7Comm.System.Link

/-! The store that client and server together are: what each call of the client may come to and may do to the memory,
    in terms of the memory alone, without PDUs, chunks, references or return codes. -/

namespace S7Comm
open Go

/-! ### Bytes and bits -/

/-- The `n` bytes at `start`, if they lie in the region of the address and this is read by the byte. -/
def Memory.readSpan (mem : Memory) (addr : Address) (start n : Nat) : Option Bytes :=
  if Area.timerOrCounter addr.area then none
  else
    match keyOf addr.area addr.dbNumber with
    | .ok key =>
      (mem.regions key).bind fun reg =>
        if start + n ≤ reg.data.length then some ((reg.data.drop start).take n) else none
    | _ => none

/-- The first `n` bytes of the region of the address exist and can be written. -/
def Memory.Takes (mem : Memory) (addr : Address) (n : Nat) : Prop :=
  Area.timerOrCounter addr.area = false ∧ ∃ key reg, keyOf addr.area addr.dbNumber = .ok key ∧
    mem.regions key = some reg ∧ reg.readOnly = false ∧ n ≤ reg.data.length

/-- The step gives bit `k` of byte `o` of the region the value `v`, and leaves every other bit as it was. -/
structure SetsBit (key : AreaKey) (o k : Nat) (v : Bool) (step : Memory × Memory) : Prop where
  fits : ∃ reg, step.1.regions key = some reg ∧ o < reg.data.length
  bits : ∀ key' i j, step.2.bitAt key' i j =
    if key' = key ∧ i = o ∧ j = k then some v else step.1.bitAt key' i j

/-- The byte around a bit. -/
def BitAddress.byte (addr : BitAddress) : Address := ⟨addr.area, addr.dbNumber, addr.byteOffset, 1⟩

/-! ### Reads and writes -/

/-- `n` bytes from the start of the address pass the checks of the client. -/
def Address.Accepted (addr : Address) (n : Int) : Prop :=
  validateAddress addr = .ok () ∧ validateRangeEnd addr.start n = .ok ()

/-- A read of an address: the bytes, or a rejection where there are none. -/
structure Reads (mem : Memory) (addr : Address) (r : Res ReadResult) : Prop where
  refused : ¬addr.Accepted addr.size → Eff.Failed r
  empty : addr.Accepted addr.size → addr.size = 0 → ∃ out, r = .ok out ∧ out.status = .success ∧ out.data = []
  found : addr.Accepted addr.size → 0 < addr.size → ∀ d,
    mem.readSpan addr addr.start.toNat addr.size.toNat = some d →
      ∃ out, r = .ok out ∧ out.status = .success ∧ out.data = d
  missing : addr.Accepted addr.size → 0 < addr.size →
    mem.readSpan addr addr.start.toNat addr.size.toNat = none → ∃ out, r = .ok out ∧ out.status = .rejected

/-- A write to an address: the first bytes of the data are stored, and all of them exactly when it returns nil. With
    an even PDU size it does so where the memory takes them. -/
structure Writes (p : Nat) (mem : Memory) (addr : Address) (data : Bytes) (r : Res Unit) (mem' : Memory) : Prop where
  ended : r = .ok () ∨ Eff.Failed r
  refused : ¬addr.Accepted data.length → Eff.Failed r ∧ mem' = mem
  stored : addr.Accepted data.length → ∃ n ≤ data.length,
    mem' = storeAt mem addr.key addr.start.toNat (data.take n) ∧
    (0 < n → (mem.readSpan addr addr.start.toNat n).isSome) ∧
    (r = .ok () ↔ n = data.length)
  taken : addr.Accepted data.length → p % 2 = 0 → mem.Takes addr (addr.start.toNat + data.length) → r = .ok ()

structure ReadsBit (mem : Memory) (addr : BitAddress) (r : Res Bool) : Prop where
  refused : validateBitAddress addr ≠ .ok () → Eff.Failed r
  found : validateBitAddress addr = .ok () → ∀ b, mem.readSpan addr.byte addr.byteOffset.toNat 1 = some [b] →
    r = .ok (b.toNat.testBit addr.bitOffset.toNat)
  missing : validateBitAddress addr = .ok () → mem.readSpan addr.byte addr.byteOffset.toNat 1 = none → Eff.Failed r

structure WritesBit (mem : Memory) (addr : BitAddress) (v : Bool) (r : Res Unit) (mem' : Memory) : Prop where
  refused : validateBitAddress addr ≠ .ok () → Eff.Failed r ∧ mem' = mem
  stored : r = .ok () ∧ SetsBit addr.byte.key addr.byteOffset.toNat addr.bitOffset.toNat v (mem, mem') ∨
    Eff.Failed r ∧ mem' = mem
  taken : validateBitAddress addr = .ok () → mem.Takes addr.byte (addr.byteOffset.toNat + 1) → r = .ok ()

/-! ### Scans -/

/-- What a probe of a scan says: the span can be read or not, and its reads agree. -/
structure Sees (mem : Memory) (obs : ReadProbeObservation) : Prop where
  steady : obs.result.status ≠ .inconclusive
  stable : obs.stable ≠ some false
  readable : obs.result.status = .success ↔ obs.request.Accepted obs.request.size ∧
    (mem.readSpan obs.request obs.request.start.toNat obs.request.size.toNat).isSome
  data : obs.result.status = .success →
    mem.readSpan obs.request obs.request.start.toNat obs.request.size.toNat = some obs.result.data

/-- A scan that has ended says of every offset whether it can be read. -/
def Scans (mem : Memory) (fuel : Nat) (req : RangeProbeRequest) (r : Res (Option (RangeProbeResult × Option GoError))) :
    Prop :=
  ∀ offsets, validateRangeProbeRequest req = .ok () →
    probeOffsets req.stop req.scanStep fuel req.start = some offsets →
      ∃ out, r = .ok (some (out, none)) ∧
        out.probes.map (fun obs => (obs.offset, obs.request)) =
          offsets.map (fun o => (o, req.probeAddress o req.scanProbeSize)) ∧
        ∀ obs ∈ out.probes, Sees mem obs

/-! ### Calls -/

namespace ClientCall

/-- The call reports errors and nothing else, each call in its own way. -/
def Refused : (call : ClientCall) → Res call.Answer → Prop
  | readArea _, r => Eff.Failed r ∨ ∃ out, r = .ok out ∧ out.status ≠ .success
  | writeArea _ _, r | readBit _, r | writeBit _ _, r | getCPUState, r | getProtectionLevel, r
  | readDiagBufferRaw, r | listBlocks _, r | blockCounts, r | getBlockInfo _ _, r | uploadBlock _ _, r => Eff.Failed r
  | identify, r | readDiagBuffer, r => ∃ err, r = .ok (none, some err)
  | listAllBlocks, r => ∃ errs, r = .ok ([], errs) ∧ errs.length = 7
  | probeReadableRanges _ _, r => Eff.Failed r

/-- The call has nothing to ask for, so that it ends without a request. -/
def Idle : ClientCall → Prop
  | readArea addr => addr.size = 0
  | writeArea _ data => data = []
  | probeReadableRanges fuel req =>
    probeOffsets req.stop req.scanStep fuel req.start = none ∨
      probeOffsets req.stop req.scanStep fuel req.start = some []
  | _ => False

/-- What a call on a connection may come to, and what it may do to the memory: reads and writes are those of the store,
    and everything else the server refuses. -/
def Meets (p : Nat) : (call : ClientCall) → (before : Memory) → Res call.Answer → (after : Memory) → Prop
  | readArea addr, mem, r, mem' => mem' = mem ∧ Reads mem addr r
  | writeArea addr data, mem, r, mem' => Writes p mem addr data r mem'
  | readBit addr, mem, r, mem' => mem' = mem ∧ ReadsBit mem addr r
  | writeBit addr v, mem, r, mem' => WritesBit mem addr v r mem'
  | probeReadableRanges fuel req, mem, r, mem' => mem' = mem ∧ Scans mem fuel req r
  | call, mem, r, mem' => mem' = mem ∧ call.Refused r

end ClientCall
end S7Comm
