import S7Comm.Client.Userdata
import S7Comm.Wire.Blocks

/-! Block functions of the client (`client/blocks.go`): lists, counts and headers of blocks. -/

namespace S7Comm
open Go

/-- The header of a block. -/
structure BlockInfo where
  type : UInt8
  number : Int
  language : UInt8 := 0
  flags : UInt8 := 0
  loadMemory : Nat := 0
  localData : Nat := 0
  mc7Size : Nat := 0
  sbbLength : Nat := 0
  author : Bytes := []
  family : Bytes := []
  name : Bytes := []
  version : String := ""
  checkSum : UInt16 := 0
  deriving Repr, DecidableEq

/-- The error of a block parser. -/
def asBlockFailure {α : Type} : Res α → Res α
  | .fail err => .fail (.join err (.sentinel .protocolFailure))
  | r => r

/-- The blocks of a list. -/
def blocksOf (bt : UInt8) (payload : Bytes) : Res (List BlockInfo) := do
  let entries ← asBlockFailure (parseBlockListResponse payload)
  pure (entries.map fun e =>
    { type := bt, number := e.blockNumber.toNat, language := e.language, flags := e.flags })

/-- The counts by type. A type that comes twice has the count that came last. -/
def blockCountsOf (payload : Bytes) : Res (List (UInt8 × Nat)) := do
  let counts ← asBlockFailure (parseBlockCountResponse payload)
  pure (counts.foldl (fun out bc => (bc.blockType, bc.count) :: out.filter fun p => p.1 != bc.blockType) [])

/-- The header of a block. When the answer cannot be decoded, it has only type and number, and comes with the error. -/
def blockInfoOf (bt : UInt8) (num : Int) (payload : Bytes) : Res (BlockInfo × Option GoError) :=
  match asBlockFailure (parseBlockInfoResponse payload) with
  | .panic => .panic
  | .fail err => pure ({ type := bt, number := num }, some err)
  | .ok bi =>
    pure ({
      type := bt
      number := bi.number
      language := bi.language
      flags := bi.flags
      loadMemory := bi.loadMemory
      localData := bi.localData
      mc7Size := bi.mc7Size
      sbbLength := bi.ssbLength
      author := bi.author
      family := bi.family
      name := bi.name
      version := bi.version
      checkSum := bi.checksum }, none)

section Blocks
variable {σ : Type} (net : Net σ)

def listBlocks (bt : UInt8) : ClientM σ (List BlockInfo) := do
  let ref ← nextPDURef
  let (_, payload) ← userdata net userdataGroupBlock userdataBlockList (encodeBlockListRequest ref bt) ref
  blocksOf bt payload

def Client.blockCounts : ClientM σ (List (UInt8 × Nat)) := do
  let ref ← nextPDURef
  let (_, payload) ← userdata net userdataGroupBlock userdataBlockCount (encodeBlockCountRequest ref) ref
  blockCountsOf payload

def getBlockInfo (bt : UInt8) (num : Int) : ClientM σ (BlockInfo × Option GoError) := do
  if num < 0 ∨ num > maxUploadBlockNumber then
    Eff.fail (.validation s!"block number {num} out of range (0..{maxUploadBlockNumber})")
  else
    let ref ← nextPDURef
    let req ← asValidation (encodeBlockInfoRequest ref bt num)
    let (_, payload) ← userdata net userdataGroupBlock userdataBlockInfo req ref
    blockInfoOf bt num payload

/-- The types with their names, in the order in which `ListAllBlocks` asks for them. -/
def allBlockTypes : List (UInt8 × String) :=
  [(0x38, "OB"), (0x41, "DB"), (0x42, "SDB"), (0x43, "FC"), (0x45, "FB"), (0x44, "SFC"), (0x46, "SFB")]

/-- The loop of `ListAllBlocks`: the blocks so far, and the errors so far. -/
def listBlockTypes : List (UInt8 × String) → List BlockInfo → List GoError → ClientM σ (List BlockInfo × List GoError)
  | [], all, errs => pure (all, errs)
  | (bt, name) :: types, all, errs => do
    match ← Eff.attempt (listBlocks net bt) with
    | .error err => listBlockTypes types all (errs ++ [.wrap (s!"list blocks {name}: " ++ err.error) err])
    | .ok blocks => listBlockTypes types (all ++ blocks) errs

/-- All blocks; the blocks of the types that could be listed come with the errors of the others. -/
def listAllBlocks : ClientM σ (List BlockInfo × List GoError) := listBlockTypes net allBlockTypes [] []

end Blocks

end S7Comm
