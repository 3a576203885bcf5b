import S7Comm.Lib.Span
import S7Comm.Wire.Vars

/-! The memory of the server (`server/memory.go`). One lock guards all areas, so every operation here is one
    step. A map entry that holds a pointer to a region is a region in the map: an operation that writes
    through the pointer stores the region back. -/

namespace S7Comm
open Go

/-- An area code; clients may send any byte. -/
abbrev Area : Type := UInt8

namespace Area

def valid (a : Area) : Bool :=
  a == areaInputs || a == areaOutputs || a == areaMerkers || a == areaDB || a == areaTimer || a == areaCounter

/-- Whether `a` holds two-byte timer or counter elements. -/
def timerOrCounter (a : Area) : Bool := a == areaTimer || a == areaCounter

end Area

/-- The largest area: the S7ANY start address is 24 bits in bits. -/
def maxAreaSize : Nat := maxS7AnyByteOffset + 1

structure Region where
  data : Bytes
  readOnly : Bool
  deriving Repr, DecidableEq

structure AreaKey where
  area : Area
  db : UInt16 := 0
  deriving Repr, DecidableEq

@[ext] structure Memory where
  regions : AreaKey → Option Region

namespace Memory

def empty : Memory := ⟨fun _ => none⟩

/-- `m.regions[key] = r`. -/
def set (m : Memory) (key : AreaKey) (r : Region) : Memory := ⟨Function.update m.regions key (some r)⟩

@[simp] theorem set_regions_self (m : Memory) (key : AreaKey) (r : Region) : (m.set key r).regions key = some r := by
  simp [set]

theorem set_regions_of_ne {m : Memory} {key k : AreaKey} {r : Region} (h : k ≠ key) :
    (m.set key r).regions k = m.regions k := by
  simp [set, h]

end Memory

def describe (k : AreaKey) : String :=
  if k.area = areaDB then s!"DB{k.db}" else areaString k.area

def keyOf (area : Area) (db : Int) : Res AreaKey :=
  if !area.valid then .fail (Sentinel.unknownArea.wrapped ("area " ++ areaString area))
  else if area ≠ areaDB then .ok { area }
  else if db < 1 ∨ db > maxS7AnyDBNumber then
    .fail (Sentinel.unknownArea.wrapped s!"DB number {db} not in 1..{maxS7AnyDBNumber}")
  else .ok { area, db := UInt16.ofNat db.toNat }

namespace Memory

/-- The host-side `register`, with `readOnly` as its one option. -/
def register (area : Area) (db : Int) (data : Bytes) (readOnly : Bool) : Eff Memory GoError Unit := do
  let key ← keyOf area db
  if data.length = 0 ∨ data.length > maxAreaSize then
    Eff.fail (Sentinel.spanOutOfRange.wrapped s!"size {data.length} not in 1..{maxAreaSize}")
  else
    let m ← Eff.get
    match m.regions key with
    | some _ => Eff.fail (Sentinel.areaExists.wrapped (describe key))
    | none => Eff.modify fun m => m.set key ⟨data, readOnly⟩

/-- The region that holds the span of `size` bytes from `start`, with its key. -/
def span (m : Memory) (area : Area) (db start size : Int) : Res (AreaKey × Region) := do
  let key ← keyOf area db
  match m.regions key with
  | none => .fail (Sentinel.unknownArea.wrapped (describe key))
  | some r =>
    if start < 0 ∨ size < 0 ∨ start > r.data.length ∨ size > r.data.length - start then
      .fail (Sentinel.spanOutOfRange.wrapped
        (describe key ++ s!" start {start} size {size}, area size {r.data.length}"))
    else pure (key, r)

/-- The host-side `Read`. -/
def read (m : Memory) (area : Area) (db start size : Int) : Res Bytes := do
  let (_, r) ← m.span area db start size
  sliceOf r.data start.toNat (start + size).toNat

/-- The host-side `Write`. -/
def write (area : Area) (db start : Int) (data : Bytes) : Eff Memory GoError Unit := do
  let m ← Eff.get
  let (key, r) ← m.span area db start data.length
  let _ ← sliceOf r.data start.toNat r.data.length
  Eff.modify fun m => m.set key { r with data := overwrite r.data start.toNat data }

end Memory
end S7Comm
