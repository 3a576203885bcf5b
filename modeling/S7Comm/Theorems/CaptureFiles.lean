import S7Comm.Capture.File
import S7Comm.Lib.Records

/-! Capture files. What `packets` accepts is a pcap file, header and records, or a pcapng file, blocks in sections; it
    gives back the frames that the records or blocks hold, and every other file is refused with the one error. -/

namespace S7Comm.Capture
open Go

/-! ### pcap files -/

/-- A record: the time, the number of bytes captured, the number of bytes on the wire, and the bytes. -/
structure PcapRecord where
  time : Bytes
  origLen : Bytes
  data : Bytes
  time_length : time.length = 8
  origLen_length : origLen.length = 4
  short : data.length < 2 ^ 32

def PcapRecord.wire (bo : ByteOrder) (r : PcapRecord) : Bytes :=
  r.time ++ (bo.putUint32 (UInt32.ofNat r.data.length) ++ (r.origLen ++ r.data))

/-- A record and the frame it adds. -/
def PcapRec (bo : ByteOrder) (link : UInt32) (out : List Packet) (e : Bytes) (out' : List Packet) : Prop :=
  ∃ r : PcapRecord, e = r.wire bo ∧ out' = out ++ [⟨link, r.data⟩]

section Pcap
variable {b : Bytes} {bo : ByteOrder} {link : UInt32} {off : Nat} {out : List Packet}

@[simp] theorem PcapRecord.length_wire (r : PcapRecord) : (r.wire bo).length = 16 + r.data.length := by
  simp only [wire, List.length_append, r.time_length, r.origLen_length, ByteOrder.length_putUint32]
  omega

theorem pcapFrom_end (h : b.length ≤ off) : pcapFrom b bo link off out = .ok out := by
  rw [pcapFrom, dif_neg (by omega)]
  rfl

/-- A record that stands at the offset is one round of the loop. -/
theorem pcapFrom_record {r : PcapRecord} (h : StandsAt b off (r.wire bo)) :
    pcapFrom b bo link off out = pcapFrom b bo link (off + (16 + r.data.length)) (out ++ [⟨link, r.data⟩]) := by
  have hle := h.le
  rw [r.length_wire] at hle
  simp only [PcapRecord.wire, standsAt_append, r.time_length, r.origLen_length, ByteOrder.length_putUint32] at h
  obtain ⟨-, hlen, -, hdata⟩ := h
  have hn : longIn bo b (off + 8) = .ok (UInt32.ofNat r.data.length) := ByteOrder.uint32At_eq_ok_iff.mpr hlen
  have htoNat : (UInt32.ofNat r.data.length).toNat = r.data.length := UInt32.toNat_ofNat_of_lt' r.short
  have hslice : sliceOf b (off + 16) (off + 16 + r.data.length) = .ok r.data := slice_eq_ok_iff.mpr ⟨hdata, rfl⟩
  rw [pcapFrom, dif_pos (by omega), if_neg (by omega), hn, Outcome.ok_bind]
  dsimp only
  rw [htoNat, if_neg (by omega), hslice, Outcome.ok_bind, Nat.add_assoc]

/-- Before the end, a record stands at the offset or the loop fails. -/
theorem pcapFrom_cases (h : off < b.length) :
    pcapFrom b bo link off out = .fail errFormat ∨ ∃ r : PcapRecord, StandsAt b off (r.wire bo) := by
  by_cases hshort : b.length - off < 16
  · refine .inl ?_
    rw [pcapFrom, dif_pos h, if_pos hshort]
  · obtain ⟨v, hv⟩ : ∃ v, longIn bo b (off + 8) = .ok v := bo.exists_uint32At (by omega)
    by_cases hpast : v.toNat > b.length - (off + 16)
    · refine .inl ?_
      rw [pcapFrom, dif_pos h, if_neg hshort, hv, Outcome.ok_bind, if_pos hpast]
    · have htime : ((b.drop off).take 8).length = 8 := length_take_drop (by omega)
      have horig : ((b.drop (off + 12)).take 4).length = 4 := length_take_drop (by omega)
      have hdata : ((b.drop (off + 16)).take v.toNat).length = v.toNat := length_take_drop (by omega)
      refine .inr ⟨⟨_, _, _, htime, horig, by rw [hdata]; exact v.toNat_lt⟩, ?_⟩
      simp only [PcapRecord.wire, standsAt_append, htime, horig, hdata, ByteOrder.length_putUint32, UInt32.ofNat_toNat]
      exact ⟨standsAt_take_drop (by omega), ByteOrder.uint32At_eq_ok_iff.mp hv, standsAt_take_drop (by omega),
        standsAt_take_drop (by omega)⟩

theorem reads_pcap (b : Bytes) (bo : ByteOrder) (link : UInt32) :
    Reads (PcapRec bo link) errFormat b (pcapFrom b bo link) where
  ends out := pcapFrom_end (Nat.le_refl _)
  complete := by
    rintro off out _ _ ⟨r, rfl, rfl⟩ hat
    rw [r.length_wire]
    exact pcapFrom_record hat
  sound out h := by
    refine (pcapFrom_cases h).imp_right ?_
    rintro ⟨r, hat⟩
    exact ⟨r.wire bo, _, ⟨r, rfl, rfl⟩, by rw [r.length_wire]; omega, hat⟩

theorem records_pcap {e : Bytes} {out' : List Packet} :
    Records (PcapRec bo link) out e out' ↔
      ∃ rs : List PcapRecord, e = rs.flatMap (PcapRecord.wire bo) ∧ out' = out ++ rs.map fun r => ⟨link, r.data⟩ := by
  constructor
  · intro h
    induction h with
    | nil s => exact ⟨[], rfl, (List.append_nil s).symm⟩
    | cons hfirst _ ih =>
      obtain ⟨r, rfl, rfl⟩ := hfirst
      obtain ⟨rs, rfl, rfl⟩ := ih
      exact ⟨r :: rs, rfl, by simp⟩
  · rintro ⟨rs, rfl, rfl⟩
    induction rs generalizing out with
    | nil =>
      rw [List.map_nil, List.append_nil]
      exact .nil out
    | cons r rs ih =>
      rw [List.flatMap_cons, List.map_cons, ← List.singleton_append, ← List.append_assoc]
      exact .cons ⟨r, rfl, rfl⟩ ih

end Pcap

/-- A pcap file: the magic number for times in microseconds or nanoseconds, fields that are not looked at (the version,
    the time zone, the accuracy and the largest length), the link type with flags over it, and the records. -/
structure PcapFile where
  bo : ByteOrder
  nano : Bool
  unread : Bytes
  link : UInt32
  records : List PcapRecord
  unread_length : unread.length = 16

def pcapMagic (nano : Bool) : UInt32 := if nano then 0xA1B23C4D else 0xA1B2C3D4

namespace PcapFile
variable (f : PcapFile)

def wire : Bytes :=
  f.bo.putUint32 (pcapMagic f.nano) ++ (f.unread ++ (f.bo.putUint32 f.link ++ f.records.flatMap (PcapRecord.wire f.bo)))

def packets : List Packet := f.records.map fun r => ⟨f.link &&& 0x0FFFFFFF, r.data⟩

end PcapFile

/-- After a magic number, `pcapPackets` accepts the files with records in its byte order. -/
theorem pcapPackets_eq_ok_iff {b : Bytes} {bo : ByteOrder} {magic : UInt32} (hmagic : StandsAt b 0 (bo.putUint32 magic))
    {out : List Packet} :
    pcapPackets b bo = .ok out ↔
      ∃ (unread : Bytes) (link : UInt32) (rs : List PcapRecord), unread.length = 16 ∧
        b = bo.putUint32 magic ++ (unread ++ (bo.putUint32 link ++ rs.flatMap (PcapRecord.wire bo))) ∧
        out = rs.map fun r => ⟨link &&& 0x0FFFFFFF, r.data⟩ := by
  unfold pcapPackets
  by_cases hshort : b.length < 24
  · rw [if_pos hshort]
    refine iff_of_false nofun ?_
    rintro ⟨unread, link, rs, hunread, rfl, -⟩
    simp only [List.length_append, ByteOrder.length_putUint32] at hshort
    omega
  · rw [if_neg hshort, Outcome.bind_eq_ok]
    constructor
    · rintro ⟨link, hlink, hloop⟩
      rw [(reads_pcap b bo _).eq_ok_iff (by omega), records_pcap] at hloop
      obtain ⟨rs, hrs, rfl⟩ := hloop
      have hlen : ((b.drop 4).take 16).length = 16 := length_take_drop (by omega)
      refine ⟨(b.drop 4).take 16, link, rs, hlen, ?_, List.nil_append _⟩
      rw [← hrs]
      have hparts : StandsAt b 0 (bo.putUint32 magic ++ ((b.drop 4).take 16 ++ (bo.putUint32 link ++ b.drop 24))) := by
        simp only [standsAt_append, ByteOrder.length_putUint32, hlen]
        exact ⟨hmagic, standsAt_take_drop (by omega), ByteOrder.uint32At_eq_ok_iff.mp hlink, standsAt_drop (by omega)⟩
      refine (standsAt_append_end []).mp ⟨hparts, ?_⟩
      simp only [List.length_append, ByteOrder.length_putUint32, hlen, List.length_drop, List.nil_append, List.length_nil]
      omega
    · rintro ⟨unread, link, rs, hunread, rfl, rfl⟩
      refine ⟨link, ByteOrder.uint32At_eq_ok_iff.mpr ?_, ?_⟩
      · refine ⟨bo.putUint32 magic ++ unread, rs.flatMap (PcapRecord.wire bo), by simp, by simp [hunread]⟩
      · rw [(reads_pcap _ bo _).eq_ok_iff (by omega), records_pcap]
        refine ⟨rs, ?_, List.nil_append _⟩
        rw [← List.append_assoc, ← List.append_assoc]
        exact List.drop_left' (by simp [hunread])

theorem pcapPackets_cases (b : Bytes) (bo : ByteOrder) :
    pcapPackets b bo = .fail errFormat ∨ ∃ out, pcapPackets b bo = .ok out := by
  unfold pcapPackets
  by_cases hshort : b.length < 24
  · exact .inl (if_pos hshort)
  · obtain ⟨link, hlink⟩ : ∃ v, longIn bo b 20 = .ok v := bo.exists_uint32At (by omega)
    rw [if_neg hshort, hlink, Outcome.ok_bind]
    refine ((reads_pcap b bo _).cases [] (by omega)).imp_right ?_
    rintro ⟨out, hout, -⟩
    exact ⟨out, hout⟩

/-! ### pcapng files -/

/-- What a block holds after its type and its length. Its last four bytes, which repeat the length, are not read, nor is
    what an option or a field for the time says. -/
inductive Content where
  | header (bo : ByteOrder) (rest : Bytes)
  | interface (link : UInt16) (rest : Bytes) (long : 4 ≤ rest.length)
  | enhanced (ifc : UInt32) (time origLen data rest : Bytes) (time_length : time.length = 8)
      (origLen_length : origLen.length = 4) (long : 4 ≤ rest.length)
  | simple (size : UInt32) (payload trailer : Bytes) (trailer_length : trailer.length = 4)
  | other (typ : UInt32) (rest : Bytes) (long : 4 ≤ rest.length) (unknown : typ ∉ [1, 3, 6, sectionHeader])

namespace Content

def typ : Content → UInt32
  | header .. => sectionHeader
  | interface .. => 1
  | enhanced .. => 6
  | simple .. => 3
  | other typ .. => typ

/-- The byte order from this block on. -/
def order (bo : ByteOrder) : Content → ByteOrder
  | header bo' _ => bo'
  | _ => bo

def bytes (bo : ByteOrder) : Content → Bytes
  | header bo' rest => bo'.putUint32 0x1A2B3C4D ++ rest
  | interface link rest _ => bo.putUint16 link ++ rest
  | enhanced ifc time origLen data rest .. =>
    bo.putUint32 ifc ++ (time ++ (bo.putUint32 (UInt32.ofNat data.length) ++ (origLen ++ (data ++ rest))))
  | simple size payload trailer _ => bo.putUint32 size ++ (payload ++ trailer)
  | other _ rest .. => rest

/-- The size of the block. -/
def size (c : Content) : Nat := (c.bytes .big).length + 8

theorem length_bytes (bo : ByteOrder) (c : Content) : (c.bytes bo).length + 8 = c.size := by
  cases c <;> simp [bytes, size]

theorem size_ge (c : Content) : 12 ≤ c.size := by
  cases c <;> simp [bytes, size] <;> omega

theorem eq_header (c : Content) (h : c.typ = sectionHeader) : ∃ bo rest, c = header bo rest := by
  cases c with
  | header bo rest => exact ⟨bo, rest, rfl⟩
  | interface => cases h
  | enhanced => cases h
  | simple => cases h
  | other typ rest long unknown =>
    obtain rfl : typ = sectionHeader := h
    exact absurd (by decide) unknown

end Content

/-- What the block adds; a packet needs an interface of its section. -/
def Blocks.take (s : Blocks) : Content → Option Blocks
  | .header bo _ => some { s with bo, links := [] }
  | .interface link .. => some { s with links := s.links ++ [link.toUInt32] }
  | .enhanced ifc _ _ data .. => s.links[ifc.toNat]?.map fun link => { s with out := s.out ++ [⟨link, data⟩] }
  | .simple size payload .. =>
    s.links.head?.map fun link => { s with out := s.out ++ [⟨link, payload.take size.toNat⟩] }
  | .other .. => some s

/-- A block is a multiple of four bytes. -/
structure Block where
  content : Content
  aligned : content.size % 4 = 0
  short : content.size < 2 ^ 32

def Block.wire (bo : ByteOrder) (k : Block) : Bytes :=
  let bo := k.content.order bo
  bo.putUint32 k.content.typ ++ (bo.putUint32 (UInt32.ofNat k.content.size) ++ k.content.bytes bo)

/-- A block and what it adds. -/
def BlockRec (s : Blocks) (e : Bytes) (s' : Blocks) : Prop :=
  ∃ k : Block, e = k.wire s.bo ∧ s.take k.content = some s'

@[simp] theorem Block.length_wire (bo : ByteOrder) (k : Block) : (k.wire bo).length = k.content.size := by
  have := k.content.length_bytes (k.content.order bo)
  simp only [wire, List.length_append, ByteOrder.length_putUint32]
  omega

/-! ### The body of a block -/

section Body
variable {s s' : Blocks} {body tail : Bytes}

/-- What stands in a block before its last four bytes stands in its body. -/
theorem standsAt_body {e : Bytes} {i : Nat} (h : StandsAt (body ++ tail) i e) (hle : i + e.length ≤ body.length) :
    StandsAt body i e := by
  have hbody : StandsAt (body ++ tail) 0 body := standsAt_zero.mpr ⟨tail, rfl⟩
  refine hbody.within ?_ hle
  rwa [Nat.zero_add]

/-- The body of a block is taken for what it is. -/
theorem takeBody_content {c : Content} (hc : c.typ ≠ sectionHeader) (hshort : c.size < 2 ^ 32)
    (htake : s.take c = some s') (hbytes : c.bytes s.bo = body ++ tail) (htail : tail.length = 4) :
    s.takeBody c.typ body = .ok s' := by
  have hlen := congrArg List.length hbytes
  rw [List.length_append, htail] at hlen
  have hall : StandsAt (body ++ tail) 0 (c.bytes s.bo) := standsAt_zero.mpr ⟨[], by rw [hbytes, List.append_nil]⟩
  cases c with
  | header bo rest => exact absurd rfl hc
  | interface link rest long =>
    cases htake
    simp only [Content.bytes, List.length_append, ByteOrder.length_putUint16] at hlen
    rw [Content.bytes, standsAt_append] at hall
    have hlink : shortIn s.bo body 0 = .ok link :=
      ByteOrder.uint16At_eq_ok_iff.mpr (standsAt_body hall.1 (by rw [ByteOrder.length_putUint16]; omega))
    rw [Blocks.takeBody, Content.typ, if_pos rfl, if_neg (by omega), hlink]
    rfl
  | enhanced ifc time origLen data rest htime horig long =>
    obtain ⟨link, hlink, rfl⟩ := Option.map_eq_some_iff.mp htake
    simp only [Content.bytes, List.length_append, ByteOrder.length_putUint32, htime, horig] at hlen
    simp only [Content.bytes, standsAt_append, ByteOrder.length_putUint32, htime, horig] at hall
    obtain ⟨hifc, -, hcap, -, hdata, -⟩ := hall
    have htoNat : (UInt32.ofNat data.length).toNat = data.length := by
      refine UInt32.toNat_ofNat_of_lt' (Nat.lt_of_le_of_lt ?_ hshort)
      simp only [Content.size, Content.bytes, List.length_append]
      omega
    have hifc' : longIn s.bo body 0 = .ok ifc :=
      ByteOrder.uint32At_eq_ok_iff.mpr (standsAt_body hifc (by rw [ByteOrder.length_putUint32]; omega))
    have hcap' : longIn s.bo body 12 = .ok (UInt32.ofNat data.length) :=
      ByteOrder.uint32At_eq_ok_iff.mpr (standsAt_body hcap (by rw [ByteOrder.length_putUint32]; omega))
    have hdata' : sliceOf body 20 (20 + data.length) = .ok data :=
      slice_eq_ok_iff.mpr ⟨standsAt_body hdata (by omega), rfl⟩
    obtain ⟨hlt, -⟩ := List.getElem?_eq_some_iff.mp hlink
    rw [Blocks.takeBody, Content.typ, if_neg (by decide), if_pos rfl, if_neg (by omega), hifc', Outcome.ok_bind, hcap',
      Outcome.ok_bind]
    dsimp only
    rw [htoNat, if_neg (by omega), indexAt, index_eq_ok.mpr hlink, Outcome.ok_bind, hdata']
    rfl
  | simple size payload trailer htrailer =>
    obtain ⟨link, hlink, rfl⟩ := Option.map_eq_some_iff.mp htake
    simp only [Content.bytes, List.length_append, ByteOrder.length_putUint32, htrailer] at hlen
    simp only [Content.bytes, standsAt_append, ByteOrder.length_putUint32] at hall
    obtain ⟨hsize, hpayload, -⟩ := hall
    have hsize' : longIn s.bo body 0 = .ok size :=
      ByteOrder.uint32At_eq_ok_iff.mpr (standsAt_body hsize (by rw [ByteOrder.length_putUint32]; omega))
    have hpayload' : StandsAt body 4 payload := standsAt_body hpayload (by omega)
    have hdata : sliceOf body 4 (4 + min size.toNat (body.length - 4)) = .ok (payload.take size.toNat) := by
      refine slice_eq_ok_iff.mpr ⟨?_, ?_⟩
      · rw [← List.take_append_drop size.toNat payload, standsAt_append] at hpayload'
        exact hpayload'.1
      · rw [List.length_take]
        omega
    have hindex : indexAt s.links 0 = .ok link := index_eq_ok.mpr (by rwa [← List.head?_eq_getElem?])
    have hne : s.links.length ≠ 0 := fun hnil => by
      rw [List.eq_nil_of_length_eq_zero hnil] at hlink
      cases hlink
    rw [Blocks.takeBody, Content.typ, if_neg (by decide), if_neg (by decide), if_pos rfl, if_neg (by omega), hsize',
      Outcome.ok_bind]
    dsimp only
    rw [hindex, Outcome.ok_bind, hdata]
    rfl
  | other typ rest long unknown =>
    cases htake
    simp only [List.mem_cons, List.not_mem_nil, or_false, not_or] at unknown
    rw [Blocks.takeBody, Content.typ, if_neg unknown.1, if_neg unknown.2.2.1, if_neg unknown.2.1]
    rfl

/-- A body that is not of a section header is taken as a content, or refused. -/
theorem takeBody_cases {typ : UInt32} (s : Blocks) (htyp : typ ≠ sectionHeader) (body : Bytes) (htail : tail.length = 4) :
    s.takeBody typ body = .fail errFormat ∨
      ∃ c s', c.typ = typ ∧ c.order s.bo = s.bo ∧ c.bytes s.bo = body ++ tail ∧ s.take c = some s' := by
  by_cases hone : typ = 1
  · by_cases hshort : body.length < 2
    · exact .inl (by rw [Blocks.takeBody, if_pos hone, if_pos hshort])
    · obtain ⟨link, hlink⟩ : ∃ v, shortIn s.bo body 0 = .ok v := s.bo.exists_uint16At (by omega)
      refine .inr ⟨.interface link (body.drop 2 ++ tail) (by rw [List.length_append]; omega), _, hone.symm, rfl, ?_, rfl⟩
      obtain ⟨after, hafter⟩ := standsAt_zero.mp (ByteOrder.uint16At_eq_ok_iff.mp hlink)
      have hdrop : body.drop 2 = after := by
        rw [hafter]
        exact List.drop_left' (ByteOrder.length_putUint16 link)
      rw [Content.bytes, ← List.append_assoc, hdrop, ← hafter]
  by_cases hsix : typ = 6
  · by_cases hshort : body.length < 20
    · exact .inl (by rw [Blocks.takeBody, if_neg hone, if_pos hsix, if_pos hshort])
    · obtain ⟨ifc, hifc⟩ : ∃ v, longIn s.bo body 0 = .ok v := s.bo.exists_uint32At (by omega)
      obtain ⟨cap, hcap⟩ : ∃ v, longIn s.bo body 12 = .ok v := s.bo.exists_uint32At (by omega)
      by_cases hbad : ifc.toNat ≥ s.links.length ∨ cap.toNat > body.length - 20
      · refine .inl ?_
        rw [Blocks.takeBody, if_neg hone, if_pos hsix, if_neg hshort, hifc, Outcome.ok_bind, hcap, Outcome.ok_bind]
        exact if_pos hbad
      · have htime : ((body.drop 4).take 8).length = 8 := length_take_drop (by omega)
        have horig : ((body.drop 16).take 4).length = 4 := length_take_drop (by omega)
        have hdata : ((body.drop 20).take cap.toNat).length = cap.toNat := length_take_drop (by omega)
        refine .inr ⟨.enhanced ifc ((body.drop 4).take 8) ((body.drop 16).take 4) ((body.drop 20).take cap.toNat)
          (body.drop (20 + cap.toNat) ++ tail) htime horig (by rw [List.length_append]; omega), _, hsix.symm, rfl, ?_,
          by rw [Blocks.take, List.getElem?_eq_getElem (by omega)]; rfl⟩
        have hparts : StandsAt body 0 (s.bo.putUint32 ifc ++ ((body.drop 4).take 8 ++ (s.bo.putUint32 cap ++
            ((body.drop 16).take 4 ++ ((body.drop 20).take cap.toNat ++ body.drop (20 + cap.toNat)))))) := by
          simp only [standsAt_append, ByteOrder.length_putUint32, htime, horig, hdata]
          exact ⟨ByteOrder.uint32At_eq_ok_iff.mp hifc, standsAt_take_drop (by omega),
            ByteOrder.uint32At_eq_ok_iff.mp hcap, standsAt_take_drop (by omega), standsAt_take_drop (by omega),
            standsAt_drop (by omega)⟩
        have hbody := (standsAt_append_end []).mp ⟨hparts, by
          simp only [List.length_append, ByteOrder.length_putUint32, htime, horig, hdata, List.length_drop,
            List.nil_append, List.length_nil]
          omega⟩
        rw [Content.bytes, hdata, UInt32.ofNat_toNat]
        conv => rhs; rw [hbody]
        simp only [List.append_assoc]
  by_cases hthree : typ = 3
  · by_cases hshort : body.length < 4 ∨ s.links.length = 0
    · exact .inl (by rw [Blocks.takeBody, if_neg hone, if_neg hsix, if_pos hthree, if_pos hshort])
    · obtain ⟨size, hsize⟩ : ∃ v, longIn s.bo body 0 = .ok v := s.bo.exists_uint32At (by omega)
      obtain ⟨link, links, hlinks⟩ := List.exists_cons_of_length_pos (show 0 < s.links.length by omega)
      refine .inr ⟨.simple size (body.drop 4) tail htail, _, hthree.symm, rfl, ?_, by rw [Blocks.take, hlinks]; rfl⟩
      obtain ⟨after, hafter⟩ := standsAt_zero.mp (ByteOrder.uint32At_eq_ok_iff.mp hsize)
      have hdrop : body.drop 4 = after := by
        rw [hafter]
        exact List.drop_left' (ByteOrder.length_putUint32 size)
      rw [Content.bytes, ← List.append_assoc, hdrop, ← hafter]
  · exact .inr ⟨.other typ (body ++ tail) (by rw [List.length_append]; omega) (by simp [hone, hthree, hsix, htyp]), _,
      rfl, rfl, rfl, rfl⟩

end Body

/-! ### The loop over the blocks -/

section Loop
variable {b : Bytes} {off : Nat} {s s' : Blocks}

/-- The type of a section header reads the same in both orders. -/
theorem putUint32_sectionHeader (bo bo' : ByteOrder) : bo.putUint32 sectionHeader = bo'.putUint32 sectionHeader := by
  cases bo <;> cases bo' <;> rfl

/-- The magic number as it is read in little-endian order. -/
def magicIn : ByteOrder → UInt32
  | .little => 0x1A2B3C4D
  | .big => 0x4D3C2B1A

theorem putUint32_magic (bo : ByteOrder) : bo.putUint32 0x1A2B3C4D = ByteOrder.little.putUint32 (magicIn bo) := by
  cases bo <;> rfl

theorem openSection_magic (s : Blocks) (bo : ByteOrder) :
    s.openSection (magicIn bo) = .ok { s with bo, links := [] } := by
  cases bo <;> rfl

theorem openSection_cases (s : Blocks) (magic : UInt32) :
    s.openSection magic = .fail errFormat ∨ ∃ bo, magic = magicIn bo := by
  by_cases hlittle : magic = 0x1A2B3C4D
  · exact .inr ⟨.little, hlittle⟩
  by_cases hbig : magic = 0x4D3C2B1A
  · exact .inr ⟨.big, hbig⟩
  · exact .inl (by rw [Blocks.openSection, if_neg hlittle, if_neg hbig])

/-- One round of the loop, once the type is read and the section is opened. -/
theorem pcapngFrom_round {typ n : UInt32} {s₀ : Blocks} (hlen : off + 12 ≤ b.length) (htyp : longIn s.bo b off = .ok typ)
    (hopen : s.opening b off typ = .ok s₀) (hn : longIn s₀.bo b (off + 4) = .ok n) :
    pcapngFrom b off s =
      if n.toNat < 12 ∨ n.toNat % 4 ≠ 0 ∨ n.toNat > b.length - off then .fail errFormat
      else s₀.takeBody typ ((b.drop (off + 8)).take (n.toNat - 12)) >>= pcapngFrom b (off + n.toNat) := by
  rw [pcapngFrom, dif_pos (by omega), if_neg (by omega), htyp, Outcome.ok_bind, hopen, Outcome.ok_bind, hn,
    Outcome.ok_bind]
  dsimp only
  split_ifs with hbad
  · rfl
  · rw [sliceOf_of_le (by omega) (by omega), Outcome.ok_bind, show off + n.toNat - 4 - (off + 8) = n.toNat - 12 by omega]

theorem pcapngFrom_end (h : b.length ≤ off) : pcapngFrom b off s = .ok s := by
  rw [pcapngFrom, dif_neg (by omega)]
  rfl

/-- A block that stands at the offset is one round of the loop. -/
theorem pcapngFrom_block {k : Block} (hat : StandsAt b off (k.wire s.bo)) (htake : s.take k.content = some s') :
    pcapngFrom b off s = pcapngFrom b (off + k.content.size) s' := by
  obtain ⟨c, aligned, short⟩ := k
  have hle := hat.le
  have hge := c.size_ge
  have htoNat : (UInt32.ofNat c.size).toNat = c.size := UInt32.toNat_ofNat_of_lt' short
  rw [Block.length_wire] at hle
  simp only [Block.wire, standsAt_append, ByteOrder.length_putUint32] at hat
  dsimp only at hle htake ⊢
  obtain ⟨htyp, hn, hbytes⟩ := hat
  by_cases hc : c.typ = sectionHeader
  · obtain ⟨bo, rest, rfl⟩ := c.eq_header hc
    cases htake
    rw [Content.typ, putUint32_sectionHeader _ s.bo] at htyp
    rw [Content.bytes, putUint32_magic, standsAt_append] at hbytes
    have hopen : s.opening b off sectionHeader = .ok { s with bo, links := [] } := by
      have hmagic : longIn .little b (off + 8) = .ok (magicIn bo) := ByteOrder.uint32At_eq_ok_iff.mpr hbytes.1
      rw [Blocks.opening, if_pos rfl, hmagic, Outcome.ok_bind, openSection_magic]
    rw [pcapngFrom_round (by omega) (ByteOrder.uint32At_eq_ok_iff.mpr htyp) hopen
      (ByteOrder.uint32At_eq_ok_iff.mpr hn), htoNat, if_neg (by omega)]
    rfl
  · have horder : c.order s.bo = s.bo := by
      cases c with
      | header => exact absurd rfl hc
      | _ => rfl
    rw [horder] at htyp hn hbytes
    have hlen := c.length_bytes s.bo
    rw [pcapngFrom_round (by omega) (ByteOrder.uint32At_eq_ok_iff.mpr htyp) (if_neg hc)
      (ByteOrder.uint32At_eq_ok_iff.mpr hn), htoNat, if_neg (by omega)]
    have hbody : (b.drop (off + 8)).take (c.size - 12) = (c.bytes s.bo).take (c.size - 12) := by
      rw [← hbytes.drop, List.take_take, Nat.min_eq_left (by omega)]
    have htail : ((c.bytes s.bo).drop (c.size - 12)).length = 4 := by
      rw [List.length_drop]
      omega
    rw [hbody, takeBody_content hc short htake (List.take_append_drop _ _).symm htail, Outcome.ok_bind]

/-- Before the end, a block stands at the offset or the loop fails. -/
theorem pcapngFrom_cases (s : Blocks) (h : off < b.length) :
    pcapngFrom b off s = .fail errFormat ∨
      ∃ (k : Block) (s' : Blocks), s.take k.content = some s' ∧ StandsAt b off (k.wire s.bo) := by
  by_cases hshort : b.length - off < 12
  · refine .inl ?_
    rw [pcapngFrom, dif_pos h, if_pos hshort]
  obtain ⟨typ, htyp⟩ : ∃ v, longIn s.bo b off = .ok v := s.bo.exists_uint32At (by omega)
  obtain ⟨magic, hmagic⟩ : ∃ v, longIn .little b (off + 8) = .ok v := ByteOrder.little.exists_uint32At (by omega)
  by_cases hc : typ = sectionHeader
  · rcases openSection_cases s magic with hfail | ⟨bo, rfl⟩
    · refine .inl ?_
      rw [pcapngFrom, dif_pos h, if_neg hshort, htyp, Outcome.ok_bind, Blocks.opening, if_pos hc, hmagic,
        Outcome.ok_bind, hfail]
      rfl
    · have hopen : s.opening b off typ = .ok { s with bo, links := [] } := by
        rw [Blocks.opening, if_pos hc, hmagic, Outcome.ok_bind, openSection_magic]
      obtain ⟨n, hn⟩ : ∃ v, longIn bo b (off + 4) = .ok v := bo.exists_uint32At (by omega)
      rw [pcapngFrom_round (by omega) htyp hopen hn]
      split_ifs with hbad
      · exact .inl rfl
      · -- The magic number may be the last four bytes of the block, where the length should stand.
        have hrest : ((b.drop (off + 12)).take (n.toNat - 12)).length = n.toNat - 12 := length_take_drop (by omega)
        have hsize : (Content.header bo ((b.drop (off + 12)).take (n.toNat - 12))).size = n.toNat := by
          simp only [Content.size, Content.bytes, List.length_append, ByteOrder.length_putUint32, hrest]
          omega
        refine .inr ⟨⟨.header bo ((b.drop (off + 12)).take (n.toNat - 12)), by omega, by rw [hsize]; exact n.toNat_lt⟩, _,
          rfl, ?_⟩
        simp only [Block.wire, hsize, Content.order, Content.typ, Content.bytes, standsAt_append,
          ByteOrder.length_putUint32, UInt32.ofNat_toNat]
        refine ⟨?_, ByteOrder.uint32At_eq_ok_iff.mp hn, ?_, standsAt_take_drop (by omega)⟩
        · rw [putUint32_sectionHeader _ s.bo, ← hc]
          exact ByteOrder.uint32At_eq_ok_iff.mp htyp
        · rw [putUint32_magic]
          exact ByteOrder.uint32At_eq_ok_iff.mp hmagic
  · obtain ⟨n, hn⟩ : ∃ v, longIn s.bo b (off + 4) = .ok v := s.bo.exists_uint32At (by omega)
    rw [pcapngFrom_round (by omega) htyp (if_neg hc) hn]
    split_ifs with hbad
    · exact .inl rfl
    · have htail : ((b.drop (off + n.toNat - 4)).take 4).length = 4 := length_take_drop (by omega)
      have hbody : ((b.drop (off + 8)).take (n.toNat - 12)).length = n.toNat - 12 := length_take_drop (by omega)
      rcases takeBody_cases s hc ((b.drop (off + 8)).take (n.toNat - 12)) htail with
        hfail | ⟨c, s', htyp', horder, hbytes, htake⟩
      · exact .inl (by rw [hfail]; rfl)
      · have hsize : c.size = n.toNat := by
          rw [← c.length_bytes s.bo, hbytes, List.length_append, htail, hbody]
          omega
        refine .inr ⟨⟨c, by omega, by rw [hsize]; exact n.toNat_lt⟩, s', htake, ?_⟩
        simp only [Block.wire, hsize, horder, htyp', hbytes, standsAt_append, ByteOrder.length_putUint32, hbody,
          UInt32.ofNat_toNat]
        refine ⟨ByteOrder.uint32At_eq_ok_iff.mp htyp, ByteOrder.uint32At_eq_ok_iff.mp hn, standsAt_take_drop (by omega), ?_⟩
        rw [show off + 4 + 4 + (n.toNat - 12) = off + n.toNat - 4 by omega]
        exact standsAt_take_drop (by omega)

theorem reads_pcapng (b : Bytes) : Reads BlockRec errFormat b (pcapngFrom b) where
  ends s := pcapngFrom_end (Nat.le_refl _)
  complete := by
    rintro off s _ s' ⟨k, rfl, htake⟩ hat
    rw [k.length_wire]
    exact pcapngFrom_block hat htake
  sound s h := by
    refine (pcapngFrom_cases s h).imp_right ?_
    rintro ⟨k, s', htake, hat⟩
    have hge := k.content.size_ge
    exact ⟨k.wire s.bo, s', ⟨k, rfl, htake⟩, by rw [k.length_wire]; omega, hat⟩

end Loop

/-- Blocks one after the other, each in the byte order of its section. -/
def blocksWire : ByteOrder → List Block → Bytes
  | _, [] => []
  | bo, k :: ks => k.wire bo ++ blocksWire (k.content.order bo) ks

/-- What the blocks add. -/
def Blocks.takeAll : Blocks → List Block → Option Blocks
  | s, [] => some s
  | s, k :: ks => (s.take k.content).bind fun s => s.takeAll ks

/-- A pcapng file: a section header, and any blocks after it. -/
structure PcapngFile where
  first : Block
  blocks : List Block
  isHeader : first.content.typ = sectionHeader

namespace PcapngFile
variable (f : PcapngFile)

def wire : Bytes := blocksWire .little (f.first :: f.blocks)

/-- The frames, if every packet has an interface of its section. -/
def packets : Option (List Packet) := (Blocks.takeAll {} (f.first :: f.blocks)).map Blocks.out

end PcapngFile

section Pcapng
variable {b : Bytes} {s s' : Blocks}

theorem Blocks.take_bo {c : Content} (h : s.take c = some s') : s'.bo = c.order s.bo := by
  cases c with
  | header => cases h; rfl
  | interface => cases h; rfl
  | enhanced =>
    obtain ⟨link, -, rfl⟩ := Option.map_eq_some_iff.mp h
    rfl
  | simple =>
    obtain ⟨link, -, rfl⟩ := Option.map_eq_some_iff.mp h
    rfl
  | other => cases h; rfl

theorem records_pcapng {e : Bytes} :
    Records BlockRec s e s' ↔ ∃ ks : List Block, e = blocksWire s.bo ks ∧ s.takeAll ks = some s' := by
  constructor
  · intro h
    induction h with
    | nil s => exact ⟨[], rfl, rfl⟩
    | cons hfirst _ ih =>
      obtain ⟨k, rfl, htake⟩ := hfirst
      obtain ⟨ks, rfl, hall⟩ := ih
      exact ⟨k :: ks, by rw [blocksWire, Blocks.take_bo htake], by rw [Blocks.takeAll, htake]; exact hall⟩
  · rintro ⟨ks, rfl, hall⟩
    induction ks generalizing s with
    | nil =>
      cases hall
      exact .nil _
    | cons k ks ih =>
      obtain ⟨s₁, htake, hrest⟩ := Option.bind_eq_some_iff.mp hall
      rw [blocksWire, ← Blocks.take_bo htake]
      exact .cons ⟨k, rfl, htake⟩ (ih hrest)

theorem pcapngPackets_eq_ok_iff {out : List Packet} :
    pcapngPackets b = .ok out ↔
      ∃ ks : List Block, b = blocksWire .little ks ∧ (Blocks.takeAll {} ks).map Blocks.out = some out := by
  rw [pcapngPackets, Outcome.bind_eq_ok]
  simp only [(reads_pcapng b).eq_ok_iff (Nat.zero_le _), records_pcapng, List.drop_zero, Option.map_eq_some_iff]
  constructor
  · rintro ⟨s, ⟨ks, hks, hall⟩, hout⟩
    cases hout
    exact ⟨ks, hks, s, hall, rfl⟩
  · rintro ⟨ks, hks, s, hall, rfl⟩
    exact ⟨s, ⟨ks, hks, hall⟩, rfl⟩

theorem pcapngPackets_cases (b : Bytes) :
    pcapngPackets b = .fail errFormat ∨ ∃ out, pcapngPackets b = .ok out := by
  rw [pcapngPackets]
  rcases (reads_pcapng b).cases {} (Nat.zero_le _) with hfail | ⟨s, hok, -⟩
  · exact .inl (by rw [hfail]; rfl)
  · exact .inr ⟨s.out, by rw [hok]; rfl⟩

/-- The first bytes of a block that starts as a section header does are those of one. -/
theorem Block.isHeader_of_standsAt {k : Block} (hat : StandsAt b 0 (ByteOrder.little.putUint32 sectionHeader))
    (hk : StandsAt b 0 (k.wire .little)) : k.content.typ = sectionHeader := by
  rw [wire, standsAt_append] at hk
  by_contra hne
  have horder : k.content.order .little = .little := by
    rcases hc : k.content with _ | _ | _ | _ | _
    · rw [hc] at hne
      exact absurd rfl hne
    all_goals rfl
  rw [horder] at hk
  have h₁ : longIn .little b 0 = .ok k.content.typ := ByteOrder.uint32At_eq_ok_iff.mpr hk.1
  have h₂ : longIn .little b 0 = .ok sectionHeader := ByteOrder.uint32At_eq_ok_iff.mpr hat
  rw [h₁] at h₂
  exact hne (Outcome.ok.inj h₂)

end Pcapng

/-! ### Both -/

section Magic
variable {b : Bytes} {bo : ByteOrder} {nano : Bool}

/-- The magic number of a pcap file as it is read in little-endian order. -/
def pcapMagicIn : ByteOrder → (nano : Bool) → UInt32
  | .little, false => 0xA1B2C3D4
  | .little, true => 0xA1B23C4D
  | .big, false => 0xD4C3B2A1
  | .big, true => 0x4D3CB2A1

theorem putUint32_pcapMagic : bo.putUint32 (pcapMagic nano) = ByteOrder.little.putUint32 (pcapMagicIn bo nano) := by
  cases bo <;> cases nano <;> rfl

theorem length_of_magic {v : UInt32} (h : StandsAt b 0 (ByteOrder.little.putUint32 v)) : ¬b.length < 4 := by
  have := h.le
  rw [ByteOrder.length_putUint32] at this
  omega

theorem packets_pcap (h : StandsAt b 0 (bo.putUint32 (pcapMagic nano))) : packets b = pcapPackets b bo := by
  rw [putUint32_pcapMagic] at h
  have hmagic : longIn .little b 0 = .ok (pcapMagicIn bo nano) := ByteOrder.uint32At_eq_ok_iff.mpr h
  rw [packets, if_neg (length_of_magic h), hmagic, Outcome.ok_bind]
  cases bo <;> cases nano <;> rfl

theorem packets_pcapng (h : StandsAt b 0 (ByteOrder.little.putUint32 sectionHeader)) : packets b = pcapngPackets b := by
  have hmagic : longIn .little b 0 = .ok sectionHeader := ByteOrder.uint32At_eq_ok_iff.mpr h
  rw [packets, if_neg (length_of_magic h), hmagic]
  rfl

/-- A file starts with a magic number, or it is refused. -/
theorem packets_cases (b : Bytes) :
    packets b = .fail errFormat ∨ (∃ bo nano, StandsAt b 0 (ByteOrder.putUint32 bo (pcapMagic nano))) ∨
      StandsAt b 0 (ByteOrder.little.putUint32 sectionHeader) := by
  by_cases hshort : b.length < 4
  · exact .inl (if_pos hshort)
  obtain ⟨v, hv⟩ : ∃ v, longIn .little b 0 = .ok v := ByteOrder.little.exists_uint32At (by omega)
  have hat : StandsAt b 0 (ByteOrder.little.putUint32 v) := ByteOrder.uint32At_eq_ok_iff.mp hv
  by_cases hlittle : v = 0xA1B2C3D4 ∨ v = 0xA1B23C4D
  · rcases hlittle with rfl | rfl
    · exact .inr (.inl ⟨.little, false, hat⟩)
    · exact .inr (.inl ⟨.little, true, hat⟩)
  by_cases hbig : v = 0xD4C3B2A1 ∨ v = 0x4D3CB2A1
  · rcases hbig with rfl | rfl
    · exact .inr (.inl ⟨.big, false, hat⟩)
    · exact .inr (.inl ⟨.big, true, hat⟩)
  by_cases hng : v = sectionHeader
  · exact .inr (.inr (hng ▸ hat))
  · refine .inl ?_
    rw [packets, if_neg hshort, hv, Outcome.ok_bind, if_neg hlittle, if_neg hbig, if_neg hng]

/-- A pcap file is read as what it is. -/
theorem packets_pcapFile (f : PcapFile) : packets f.wire = .ok f.packets := by
  have hmagic : StandsAt f.wire 0 (f.bo.putUint32 (pcapMagic f.nano)) := standsAt_zero.mpr ⟨_, rfl⟩
  rw [packets_pcap hmagic, pcapPackets_eq_ok_iff hmagic]
  exact ⟨f.unread, f.link, f.records, f.unread_length, rfl, rfl⟩

/-- A pcapng file is read as what it is. -/
theorem packets_pcapngFile {f : PcapngFile} {out : List Packet} (h : f.packets = some out) :
    packets f.wire = .ok out := by
  have hmagic : StandsAt f.wire 0 (ByteOrder.little.putUint32 sectionHeader) := by
    rw [putUint32_sectionHeader _ (f.first.content.order .little), ← f.isHeader]
    exact standsAt_zero.mpr ⟨_, by rw [PcapngFile.wire, blocksWire, Block.wire, List.append_assoc]⟩
  rw [packets_pcapng hmagic, pcapngPackets_eq_ok_iff]
  exact ⟨f.first :: f.blocks, rfl, h⟩

theorem packets_outcome (b : Bytes) : packets b = .fail errFormat ∨ ∃ out, packets b = .ok out := by
  rcases packets_cases b with hfail | ⟨bo, nano, hmagic⟩ | hmagic
  · exact .inl hfail
  · rw [packets_pcap hmagic]
    exact pcapPackets_cases b bo
  · rw [packets_pcapng hmagic]
    exact pcapngPackets_cases b

end Magic

end S7Comm.Capture
