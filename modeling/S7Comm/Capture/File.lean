import S7Comm.Errors
import S7Comm.Lib.ByteOrder

/-! Capture files (`internal/capture/capture.go`): the link-layer frames of a classic pcap or a pcapng file. Both start
    with a magic number that says in which byte order the fields are; in a pcapng file every section says so again. -/

namespace S7Comm.Capture
open Go

/-- One link-layer frame. -/
structure Packet where
  link : UInt32
  data : Bytes
  deriving Repr, DecidableEq

/-- The error of a file that is neither pcap nor pcapng, or is cut short. -/
def errFormat : GoError := .text "capture: unsupported or malformed capture file"

abbrev shortIn (bo : ByteOrder) (b : Bytes) (i : Nat) : Res UInt16 := bo.uint16At b i

abbrev longIn (bo : ByteOrder) (b : Bytes) (i : Nat) : Res UInt32 := bo.uint32At b i

/-! ### pcap -/

/-- The loop of `pcapPackets` from `off` on. -/
def pcapFrom (b : Bytes) (bo : ByteOrder) (link : UInt32) (off : Nat) (out : List Packet) : Res (List Packet) := do
  if _h : off < b.length then
    if b.length - off < 16 then
      .fail errFormat
    else
      let n := (← longIn bo b (off + 8)).toNat
      if n > b.length - (off + 16) then
        .fail errFormat
      else
        let data ← sliceOf b (off + 16) (off + 16 + n)
        pcapFrom b bo link (off + 16 + n) (out ++ [⟨link, data⟩])
  else
    pure out
termination_by b.length - off

def pcapPackets (b : Bytes) (bo : ByteOrder) : Res (List Packet) := do
  if b.length < 24 then
    .fail errFormat
  else
    let link := (← longIn bo b 20) &&& 0x0FFFFFFF
    pcapFrom b bo link 24 []

/-! ### pcapng -/

/-- The loop of `pcapngPackets`: the byte order and the link types of the current section, and the frames so far. -/
structure Blocks where
  bo : ByteOrder := .little
  links : List UInt32 := []
  out : List Packet := []
  deriving Repr, DecidableEq

def sectionHeader : UInt32 := 0x0A0D0D0A

/-- The magic number of a section header says the byte order. The section starts without interfaces. -/
def Blocks.openSection (s : Blocks) (magic : UInt32) : Res Blocks :=
  if magic = 0x1A2B3C4D then pure { s with bo := .little, links := [] }
  else if magic = 0x4D3C2B1A then pure { s with bo := .big, links := [] }
  else .fail errFormat

/-- What a block of this type at `off` does before its length is read. -/
def Blocks.opening (s : Blocks) (b : Bytes) (off : Nat) (typ : UInt32) : Res Blocks := do
  if typ = sectionHeader then
    let magic ← longIn .little b (off + 8)
    s.openSection magic
  else
    pure s

/-- The body of a block: an interface description, an enhanced or a simple packet; others are skipped. -/
def Blocks.takeBody (s : Blocks) (typ : UInt32) (body : Bytes) : Res Blocks := do
  if typ = 1 then
    if body.length < 2 then
      .fail errFormat
    else
      let link ← shortIn s.bo body 0
      pure { s with links := s.links ++ [link.toUInt32] }
  else if typ = 6 then
    if body.length < 20 then
      .fail errFormat
    else
      let ifc := (← longIn s.bo body 0).toNat
      let capLen := (← longIn s.bo body 12).toNat
      if ifc ≥ s.links.length ∨ capLen > body.length - 20 then
        .fail errFormat
      else
        let link ← indexAt s.links ifc
        let data ← sliceOf body 20 (20 + capLen)
        pure { s with out := s.out ++ [⟨link, data⟩] }
  else if typ = 3 then
    if body.length < 4 ∨ s.links.length = 0 then
      .fail errFormat
    else
      let capLen := min (← longIn s.bo body 0).toNat (body.length - 4)
      let link ← indexAt s.links 0
      let data ← sliceOf body 4 (4 + capLen)
      pure { s with out := s.out ++ [⟨link, data⟩] }
  else
    pure s

/-- The loop of `pcapngPackets` from `off` on. The length at the end of a block is not read. -/
def pcapngFrom (b : Bytes) (off : Nat) (s : Blocks) : Res Blocks := do
  if _h : off < b.length then
    if b.length - off < 12 then
      .fail errFormat
    else
      let typ ← longIn s.bo b off
      let s ← s.opening b off typ
      let n := (← longIn s.bo b (off + 4)).toNat
      if _h : n < 12 ∨ n % 4 ≠ 0 ∨ n > b.length - off then
        .fail errFormat
      else
        let body ← sliceOf b (off + 8) (off + n - 4)
        let s ← s.takeBody typ body
        pcapngFrom b (off + n) s
  else
    pure s
termination_by b.length - off

def pcapngPackets (b : Bytes) : Res (List Packet) := do
  let s ← pcapngFrom b 0 {}
  pure s.out

/-! ### Both -/

/-- The frames of a pcap or pcapng file. -/
def packets (b : Bytes) : Res (List Packet) := do
  if b.length < 4 then
    .fail errFormat
  else
    let magic ← longIn .little b 0
    if magic = 0xA1B2C3D4 ∨ magic = 0xA1B23C4D then pcapPackets b .little
    else if magic = 0xD4C3B2A1 ∨ magic = 0x4D3CB2A1 then pcapPackets b .big
    else if magic = sectionHeader then pcapngPackets b
    else .fail errFormat

end S7Comm.Capture
