import S7Comm.Wire.Userdata

/-! Block functions and block upload (`wire/pdu_blocks.go`). A Go string is the bytes it holds. -/

namespace S7Comm
open Go

def funcUploadStart : UInt8 := 0x1D
def funcUpload : UInt8 := 0x1E
def funcUploadEnd : UInt8 := 0x1F

/-! ### Block addresses -/

/-- The block types: the characters '8' and 'A' to 'F'. -/
def validBlockType (t : UInt8) : Bool :=
  t == 0x38 || t == 0x41 || t == 0x42 || t == 0x43 || t == 0x44 || t == 0x45 || t == 0x46

def maxUploadBlockNumber : Nat := 99999

/-- The ASCII digits of `n`, five of them. -/
def fiveDigits (n : Nat) : Bytes :=
  [n / 10000 % 10, n / 1000 % 10, n / 100 % 10, n / 10 % 10, n % 10].map fun d => 0x30 + UInt8.ofNat d

/-- The address of a block: '0', its type, its number in five digits, and 'A' for the active file system. -/
def blockAddress (blockType : UInt8) (blockNum : Int) : Res Bytes :=
  if !validBlockType blockType then .fail (Sentinel.unknownBlockType.wrapped ("0x" ++ hexByte blockType))
  else if blockNum < 0 ∨ blockNum > maxUploadBlockNumber then
    .fail (Sentinel.outOfRange.wrapped s!"block number {blockNum} not in 0..{maxUploadBlockNumber}")
  else .ok ([0x30, blockType] ++ fiveDigits blockNum.toNat ++ [0x41])

/-! ### Block functions -/

def userdataBlockCount : UInt8 := 0x01
def userdataBlockList : UInt8 := 0x02
def userdataBlockInfo : UInt8 := 0x03

def encodeBlockCountRequest (pduRef : UInt16) : Bytes :=
  userdataRequest pduRef userdataGroupBlock userdataBlockCount [retCodeNotAvailable, 0x00, 0x00, 0x00]

def encodeBlockListRequest (pduRef : UInt16) (blockType : UInt8) : Bytes :=
  userdataRequest pduRef userdataGroupBlock userdataBlockList [retCodeSuccess, 0x09, 0x00, 0x02, 0x30, blockType]

def encodeBlockInfoRequest (pduRef : UInt16) (blockType : UInt8) (blockNum : Int) : Res Bytes := do
  let addr ← blockAddress blockType blockNum
  pure (userdataRequest pduRef userdataGroupBlock userdataBlockInfo ([retCodeSuccess, 0x09, 0x00, 8] ++ addr))

structure BlockCount where
  blockType : UInt8
  count : Nat
  deriving Repr, DecidableEq

/-- The loop of `ParseBlockCountResponse` from `off` on. -/
def blockCounts (payload : Bytes) (off : Nat) : Res (List BlockCount) := do
  if _h : off < payload.length then
    let blockType ← indexAt payload (off + 1)
    let count ← wordAt (← sliceOf payload (off + 2) payload.length) 0
    let rest ← blockCounts payload (off + 4)
    pure (⟨blockType, count.toNat⟩ :: rest)
  else
    pure []
termination_by payload.length - off

def parseBlockCountResponse (payload : Bytes) : Res (List BlockCount) :=
  if payload.length % 4 ≠ 0 then .fail (.text s!"block count data length {payload.length} not multiple of 4")
  else blockCounts payload 0

/-- An entry of a block list. Its type, which is not on the wire, is left out. -/
structure BlockListEntry where
  blockNumber : UInt16
  language : UInt8
  flags : UInt8
  deriving Repr, DecidableEq

/-- The loop of `ParseBlockListResponse` from `off` on. -/
def blockListEntries (payload : Bytes) (off : Nat) : Res (List BlockListEntry) := do
  if _h : off < payload.length then
    let blockNumber ← wordAt payload off
    let flags ← indexAt payload (off + 2)
    let language ← indexAt payload (off + 3)
    let rest ← blockListEntries payload (off + 4)
    pure (⟨blockNumber, language, flags⟩ :: rest)
  else
    pure []
termination_by payload.length - off

def parseBlockListResponse (payload : Bytes) : Res (List BlockListEntry) :=
  if payload.length % 4 ≠ 0 then .fail (.text s!"block list data length {payload.length} not multiple of 4")
  else blockListEntries payload 0

/-- The header of a block. -/
structure BlockInfoData where
  flags : UInt8
  language : UInt8
  subBlockType : UInt8
  number : Nat
  loadMemory : Nat
  security : Nat
  ssbLength : Nat
  addLength : Nat
  localData : Nat
  mc7Size : Nat
  author : Bytes
  family : Bytes
  name : Bytes
  version : String
  checksum : UInt16
  deriving Repr, DecidableEq

/-- The length of a block info record up to its checksum. -/
def blockInfoSize : Nat := 70

/-- A text field without the zero bytes and blanks at its end. -/
def blockText (s : Bytes) : Bytes := (s.reverse.dropWhile fun b => b == 0x00 || b == 0x20).reverse

def parseBlockInfoResponse (b : Bytes) : Res BlockInfoData := do
  if b.length < blockInfoSize then
    .fail (.text s!"block info data too short: need {blockInfoSize} bytes, got {b.length}")
  else
    let version ← indexAt b 66
    pure {
      flags := ← indexAt b 9
      language := ← indexAt b 10
      subBlockType := ← indexAt b 11
      number := (← wordAt b 12).toNat
      loadMemory := (← dwordAt b 14).toNat
      security := (← dwordAt b 18).toNat
      ssbLength := (← wordAt b 34).toNat
      addLength := (← wordAt b 36).toNat
      localData := (← wordAt b 38).toNat
      mc7Size := (← wordAt b 40).toNat
      author := blockText (← sliceOf b 42 50)
      family := blockText (← sliceOf b 50 58)
      name := blockText (← sliceOf b 58 66)
      version := s!"{version >>> 4}.{version &&& 0x0F}"
      checksum := ← wordAt b 68 }

/-! ### Upload -/

/-- The request that starts the upload of a block, whose file name is '_' and the block address. -/
def encodeStartUploadRequest (pduRef : UInt16) (blockType : UInt8) (blockNum : Int) : Res Bytes := do
  let addr ← blockAddress blockType blockNum
  encodeMessage rosctrJob pduRef ([funcUploadStart, 0x00, 0x00, 0x00, 0x00, 0x00, 0x00, 0x00, 1 + 8, 0x5F] ++ addr) []

/-- The answer to a start upload request; the length that the CPU announces is -1 when it is absent or not a number. -/
structure StartUpload where
  uploadID : UInt32
  length : Int
  deriving Repr, DecidableEq

/-- The announced length: the number after its length byte. -/
def announcedLength (param : Bytes) : Res Int := do
  let n := (← indexAt param 8).toNat
  if 9 + n > param.length then
    .fail (.s7 { message := "invalid start upload block length" })
  else
    pure ((atoi (← sliceOf param 9 (9 + n))).getD (-1))

def parseStartUploadResponse (param : Bytes) : Res StartUpload := do
  let refusal : Res StartUpload := .fail (.s7 { message := "invalid start upload response" })
  if param.length < 8 then refusal
  else if (← indexAt param 0) ≠ funcUploadStart then refusal
  else
    let uploadID ← dwordAt param 4
    let length ← if param.length > 8 then announcedLength param else pure (-1)
    pure ⟨uploadID, length⟩

/-- A request of an upload session: function, status, two bytes and the upload ID. -/
def uploadSessionRequest (pduRef : UInt16) (fn : UInt8) (uploadID : UInt32) : Bytes :=
  s7Header rosctrJob pduRef 8 0 ++ ([fn, 0, 0, 0] ++ putUint32 uploadID)

def encodeUploadRequest (pduRef : UInt16) (uploadID : UInt32) : Bytes := uploadSessionRequest pduRef funcUpload uploadID

def encodeEndUploadRequest (pduRef : UInt16) (uploadID : UInt32) : Bytes :=
  uploadSessionRequest pduRef funcUploadEnd uploadID

structure UploadChunk where
  done : Bool
  data : Bytes
  deriving Repr, DecidableEq

def parseUploadResponse (param data : Bytes) : Res UploadChunk := do
  let refusal : Res UploadChunk := .fail (.s7 { message := "invalid upload response" })
  if param.length < 2 then refusal
  else if (← indexAt param 0) ≠ funcUpload then refusal
  else if data.length < 4 then
    .fail (.text "upload response data too short")
  else
    let n := (← wordAt data 0).toNat
    if 4 + n > data.length then
      .fail (.text s!"upload response length overrun: need {4 + n} bytes, have {data.length}")
    else
      let status ← indexAt param 1
      let segment ← sliceOf data 4 (4 + n)
      pure ⟨status &&& 0x01 == 0, segment⟩

end S7Comm
