import S7Comm.Capture.PDUs
import S7Comm.Lib.Series
import S7Comm.Lib.Sizes

/-! Splitting a run of bytes. TSDUs travel in COTP data TPDUs, and every TPDU in a TPKT packet; from any beginning of a
    run, `pdus` gets back the TSDUs that are complete in it. -/

namespace S7Comm.Capture
open Go

/-! ### TPDUs and packets -/

/-- A TPDU: the length indicator, which counts the header after it, the code, and what follows. -/
structure TPDU where
  li : UInt8
  code : UInt8
  rest : Bytes
  long : 0 < rest.length
  short : rest.length + 6 < 65536
  pos : 1 ≤ li.toNat
  fits : li.toNat ≤ rest.length + 1
  /-- A data TPDU has its end mark in the header. -/
  marked : code &&& 0xF0 = 0xF0 → 2 ≤ li.toNat

namespace TPDU
variable (t : TPDU)

def bytes : Bytes := t.li :: t.code :: t.rest

def kind : UInt8 := t.code &&& 0xF0

/-- What follows the header. -/
def data : Bytes := t.bytes.drop (t.li.toNat + 1)

/-- The mark of the last TPDU of a TSDU. -/
def eot : Bool := t.rest.getD 0 0 &&& 0x80 != 0

/-! What the reads of `pdus` find. -/

theorem index_li : indexAt t.bytes 0 = .ok t.li := rfl

theorem index_code : indexAt t.bytes 1 = .ok t.code := rfl

theorem index_mark : indexAt t.bytes 2 = .ok (t.rest.getD 0 0) := by
  have hlong := t.long
  rcases hrest : t.rest with _ | ⟨x, rest⟩
  · rw [hrest] at hlong
    cases hlong
  · rw [bytes, hrest]
    rfl

theorem length_bytes : t.bytes.length = t.rest.length + 2 := rfl

/-- The length indicator passes the check. -/
theorem li_valid : ¬(t.li.toNat + 1 > t.bytes.length ∨ t.li.toNat < 1) := by
  have hpos := t.pos
  have hfits := t.fits
  rw [length_bytes]
  omega

theorem slice_data : sliceOf t.bytes (t.li.toNat + 1) t.bytes.length = .ok t.data := by
  have hfits := t.fits
  refine slice_eq_ok_iff.mpr ⟨standsAt_drop (by rw [length_bytes]; omega), ?_⟩
  rw [data, List.length_drop, length_bytes]
  omega

end TPDU

/-- A TPKT packet: version, a reserved byte, its length, and a TPDU. -/
structure TPKT where
  reserved : UInt8
  tpdu : TPDU

namespace TPKT
variable (p : TPKT)

def size : Nat := p.tpdu.rest.length + 6

def wire : Bytes := 3 :: p.reserved :: (putUint16 (UInt16.ofNat p.size) ++ p.tpdu.bytes)

@[simp] theorem length_wire : p.wire.length = p.size := by
  simp only [wire, TPDU.bytes, size, List.length_cons, List.length_append, length_putUint16]
  omega

theorem size_bounds : 7 ≤ p.size ∧ p.size < 65536 := by
  have hlong := p.tpdu.long
  have hshort := p.tpdu.short
  unfold size
  omega

variable {p} {data : Bytes} {off : Nat}

theorem size_le (h : StandsAt data off p.wire) : off + p.size ≤ data.length := by
  rw [← p.length_wire]
  exact h.le

/-- The slice that `pdus` takes out of a packet is its TPDU. -/
theorem slice_tpdu (h : StandsAt data off p.wire) : sliceOf data (off + 4) (off + p.size) = .ok p.tpdu.bytes := by
  have hat : StandsAt data (off + 4) p.tpdu.bytes :=
    h.trans ⟨[3, p.reserved] ++ putUint16 (UInt16.ofNat p.size), [], by simp [wire], rfl⟩
  refine slice_eq_ok_iff.mpr ⟨hat, ?_⟩
  rw [TPDU.length_bytes, size]
  omega

end TPKT

/-- A packet that carries no data: connection management and the like. -/
structure Control where
  packet : TPKT
  notData : packet.tpdu.kind ≠ 0xF0

/-- A packet with a part of a TSDU. -/
structure Fragment where
  packet : TPKT
  isData : packet.tpdu.kind = 0xF0

/-- A TSDU in fragments, of which only the last has the mark. -/
structure TSDU where
  init : List Fragment
  last : Fragment
  goesOn : ∀ f ∈ init, f.packet.tpdu.eot = false
  ends : last.packet.tpdu.eot = true

def TSDU.packets (t : TSDU) : List TPKT := (t.init ++ [t.last]).map Fragment.packet

def TSDU.data (t : TSDU) : Bytes := t.packets.flatMap fun p => p.tpdu.data

/-- What a run is made of: TSDUs, with other packets between them. -/
inductive Item where
  | control (c : Control)
  | tsdu (t : TSDU)

/-- The TSDU if it is an S7 PDU. -/
def s7PDU (tsdu : Bytes) : Option Bytes := if tsdu.head? = some 0x32 then some tsdu else none

namespace Item

def packets : Item → List TPKT
  | control c => [c.packet]
  | tsdu t => t.packets

def size (i : Item) : Nat := total TPKT.size i.packets

def wire (i : Item) : Bytes := i.packets.flatMap TPKT.wire

def s7 : Item → Option Bytes
  | control _ => none
  | tsdu t => s7PDU t.data

def isKind (kind : UInt8) : Item → Bool
  | control c => c.packet.tpdu.kind == kind
  | tsdu _ => false

/-- A connect request. -/
def isCR : Item → Bool := isKind 0xE0

/-- A connect confirm. -/
def isCC : Item → Bool := isKind 0xD0

end Item

/-! ### One packet -/

/-- What was found so far, without the frames. -/
structure Found where
  tsdu : Bytes := []
  pdus : List Bytes := []
  cr : Nat := 0
  cc : Nat := 0

def Joining.found (s : Joining) : Found := ⟨s.tsdu, s.out.map PDU.data, s.cr, s.cc⟩

def Found.take (s : Found) (t : TPDU) : Found :=
  if t.kind = 0xE0 then { s with cr := s.cr + 1 }
  else if t.kind = 0xD0 then { s with cc := s.cc + 1 }
  else if t.kind = 0xF0 then
    if t.eot then { s with tsdu := [], pdus := s.pdus ++ (s7PDU (s.tsdu ++ t.data)).toList }
    else { s with tsdu := s.tsdu ++ t.data }
  else s

section Packet
variable {c : Chunk} {fromClient : Bool} {off : Nat} {p : TPKT} {s : Joining}

/-- A packet in the run is taken for what it is. -/
theorem takeTPDU_packet (fromClient : Bool) (h : StandsAt c.data off p.wire) (s : Joining) :
    ∃ s', takeTPDU c fromClient off p.size s = .ok s' ∧ s'.found = s.found.take p.tpdu := by
  have hle := TPKT.size_le h
  have hsize := p.size_bounds
  obtain ⟨frame, hframe⟩ : ∃ frame, indexAt c.frames (off + p.size - 1) = .ok frame :=
    ⟨_, index_of_lt (by rw [c.sized]; omega)⟩
  unfold takeTPDU
  simp only [TPKT.slice_tpdu h, Outcome.ok_bind, TPDU.index_li, TPDU.index_code, if_neg p.tpdu.li_valid]
  unfold Found.take
  by_cases hcr : p.tpdu.kind = 0xE0
  · rw [if_pos hcr, if_pos (show p.tpdu.code &&& 0xF0 = 0xE0 from hcr)]
    exact ⟨_, rfl, rfl⟩
  rw [if_neg hcr, if_neg (show ¬p.tpdu.code &&& 0xF0 = 0xE0 from hcr)]
  by_cases hcc : p.tpdu.kind = 0xD0
  · rw [if_pos hcc, if_pos (show p.tpdu.code &&& 0xF0 = 0xD0 from hcc)]
    exact ⟨_, rfl, rfl⟩
  rw [if_neg hcc, if_neg (show ¬p.tpdu.code &&& 0xF0 = 0xD0 from hcc)]
  by_cases hdt : p.tpdu.kind = 0xF0
  · have hmarked := p.tpdu.marked hdt
    rw [if_pos hdt, if_pos (show p.tpdu.code &&& 0xF0 = 0xF0 from hdt), if_neg (by omega)]
    simp only [TPDU.slice_data, TPDU.index_mark, Outcome.ok_bind]
    by_cases heot : p.tpdu.eot = true
    · rw [if_pos heot, if_pos (bne_iff_ne.mp heot)]
      by_cases hs7 : (s.tsdu ++ p.tpdu.data).head? = some 0x32
      · have hpdu : s7PDU (s.found.tsdu ++ p.tpdu.data) = some (s.tsdu ++ p.tpdu.data) := if_pos hs7
        rw [if_pos hs7, hframe, hpdu]
        exact ⟨_, rfl, by simp [Joining.found]⟩
      · have hpdu : s7PDU (s.found.tsdu ++ p.tpdu.data) = none := if_neg hs7
        rw [if_neg hs7, hpdu]
        exact ⟨_, rfl, by simp [Joining.found]⟩
    · rw [if_neg heot, if_neg fun h => heot (bne_iff_ne.mpr h)]
      exact ⟨_, rfl, rfl⟩
  · rw [if_neg hdt, if_neg (show ¬p.tpdu.code &&& 0xF0 = 0xF0 from hdt)]
    exact ⟨_, rfl, rfl⟩

/-- A packet is one round of the loop. -/
theorem pdusFrom_packet (fromClient : Bool) (h : StandsAt c.data off p.wire) (s : Joining) :
    ∃ s', s'.found = s.found.take p.tpdu ∧ pdusFrom c fromClient off s = pdusFrom c fromClient (off + p.size) s' := by
  obtain ⟨s', htake, hfound⟩ := takeTPDU_packet fromClient h s
  have hle := TPKT.size_le h
  have hsize := p.size_bounds
  have hversion : indexAt c.data off = .ok 3 := index_eq_ok_iff.mpr (standsAt_cons.mp h).1
  have hword : wordAt c.data (off + 2) = .ok (UInt16.ofNat p.size) :=
    uint16At_eq_ok_iff.mpr (h.trans ⟨[3, p.reserved], p.tpdu.bytes, rfl, rfl⟩)
  refine ⟨s', hfound, ?_⟩
  rw [pdusFrom, dif_pos (by omega), if_neg (by omega), hword]
  simp only [Outcome.ok_bind, uint16_toNat_ofNat hsize.2]
  rw [if_neg (by omega), hversion, Outcome.ok_bind, if_neg (by decide), dif_neg (by omega), htake]
  rfl

theorem pdusFrom_end (h : c.data.length ≤ off) (s : Joining) : pdusFrom c fromClient off s = .ok s.finish := by
  rw [pdusFrom, dif_neg (by omega)]
  rfl

/-- Fewer than four bytes, or a declared length past the end of the run. -/
def CutShort (b : Bytes) : Prop := b.length < 4 ∨ ∃ n, wordAt b 2 = .ok n ∧ b.length < n.toNat

theorem pdusFrom_cut (h : off < c.data.length) (hcut : CutShort (c.data.drop off)) (s : Joining) :
    pdusFrom c fromClient off s = .ok s.cut := by
  rw [pdusFrom, dif_pos h]
  rcases hcut with hshort | ⟨n, hn, hpast⟩
  · rw [List.length_drop] at hshort
    rw [if_pos hshort]
    rfl
  · rw [List.length_drop] at hpast
    split
    · rfl
    · have hword : wordAt c.data (off + 2) = .ok n :=
        uint16At_eq_ok_iff.mpr ((standsAt_drop (Nat.le_of_lt h)).trans (uint16At_eq_ok_iff.mp hn))
      rw [hword, Outcome.ok_bind]
      dsimp only
      rw [if_pos hpast]
      rfl

/-- A packet of which only the beginning is there. -/
theorem cutShort_beginning {b : Bytes} (h : b <+: p.wire) (hlt : b.length < p.size) : CutShort b := by
  by_cases hfour : b.length < 4
  · exact .inl hfour
  · refine .inr ⟨UInt16.ofNat p.size, ?_, ?_⟩
    · obtain ⟨rest, hrest⟩ := h
      have hat : StandsAt p.wire 2 (putUint16 (UInt16.ofNat p.size)) := ⟨[3, p.reserved], p.tpdu.bytes, rfl, rfl⟩
      have hself : StandsAt p.wire 0 b := standsAt_zero.mpr ⟨rest, hrest.symm⟩
      refine uint16At_eq_ok_iff.mpr (hself.within ?_ ?_)
      · rwa [Nat.zero_add]
      · rw [length_putUint16]
        omega
    · rwa [uint16_toNat_ofNat p.size_bounds.2]

end Packet

/-! ### A run of packets -/

def Found.takeAll (s : Found) (ps : List TPKT) : Found := ps.foldl (fun s p => s.take p.tpdu) s

section Run
variable {c : Chunk}

/-- A run that is a beginning of packets: the loop takes those that are whole, and then ends at a packet or in one. By
    induction on the packets. -/
theorem pdusFrom_packets (fromClient : Bool) {ps : List TPKT} {off : Nat} (hoff : off ≤ c.data.length)
    (h : c.data.drop off <+: ps.flatMap TPKT.wire) (s : Joining) :
    ∃ s' : Joining, s'.found = s.found.takeAll (whole TPKT.size ps (c.data.length - off)) ∧
      pdusFrom c fromClient off s =
        .ok (if leftover TPKT.size ps (c.data.length - off) = 0 then s'.finish else s'.cut) := by
  induction ps generalizing off s with
  | nil =>
    have hlen := h.length_le
    rw [List.length_drop, List.flatMap_nil, List.length_nil] at hlen
    refine ⟨s, rfl, ?_⟩
    rw [pdusFrom_end (by omega), leftover, if_pos (by omega)]
  | cons p ps ih =>
    rw [List.flatMap_cons] at h
    by_cases hfits : p.size ≤ c.data.length - off
    · have hpre : p.wire <+: c.data.drop off :=
        List.prefix_of_prefix_length_le (List.prefix_append _ _) h (by rwa [p.length_wire, List.length_drop])
      obtain ⟨rest, hrest⟩ := hpre
      have hat : StandsAt c.data off p.wire :=
        ⟨c.data.take off, rest, by rw [hrest, List.take_append_drop], by simp [hoff]⟩
      obtain ⟨s₁, hfound, hround⟩ := pdusFrom_packet fromClient hat s
      have hnext : c.data.drop (off + p.size) <+: ps.flatMap TPKT.wire := by
        rw [← hrest] at h
        have := (List.prefix_append_right_inj p.wire).mp h
        rwa [← List.drop_drop, ← hrest, ← p.length_wire, List.drop_left]
      obtain ⟨s', hfound', hloop⟩ := ih (Nat.add_le_of_le_sub' hoff hfits) hnext s₁
      refine ⟨s', ?_, ?_⟩
      · rw [hfound', hfound, whole, if_pos hfits, Nat.sub_sub]
        rfl
      · rw [hround, hloop, leftover, if_pos hfits, Nat.sub_sub]
    · refine ⟨s, by rw [whole, if_neg hfits]; rfl, ?_⟩
      rw [leftover, if_neg hfits]
      by_cases hend : c.data.length - off = 0
      · rw [if_pos hend, pdusFrom_end (by omega)]
      · rw [if_neg hend]
        refine pdusFrom_cut (by omega) (cutShort_beginning (p := p) ?_ (by rw [List.length_drop]; omega)) s
        exact List.prefix_of_prefix_length_le h (List.prefix_append _ _)
          (by rw [p.length_wire, List.length_drop]; omega)

end Run

/-! ### Items -/

/-- The data so far of the TSDU that the first `k` bytes leave unfinished. -/
def openTSDU : List Item → Nat → Bytes
  | [], _ => []
  | i :: items, k =>
    if i.size ≤ k then openTSDU items (k - i.size) else (whole TPKT.size i.packets k).flatMap fun p => p.tpdu.data

section Items
variable {i : Item} {items : List Item} {k : Nat}

theorem Found.takeAll_append (s : Found) (ps qs : List TPKT) : s.takeAll (ps ++ qs) = (s.takeAll ps).takeAll qs :=
  List.foldl_append

/-- Fragments without the mark make the TSDU grow. -/
theorem Found.takeAll_goesOn (s : Found) {ps : List TPKT} (h : ∀ p ∈ ps, p.tpdu.kind = 0xF0 ∧ p.tpdu.eot = false) :
    s.takeAll ps = { s with tsdu := s.tsdu ++ ps.flatMap fun p => p.tpdu.data } := by
  induction ps generalizing s with
  | nil => simp [Found.takeAll]
  | cons p ps ih =>
    obtain ⟨⟨hkind, heot⟩, hps⟩ := List.forall_mem_cons.mp h
    have htake : s.take p.tpdu = { s with tsdu := s.tsdu ++ p.tpdu.data } := by
      rw [Found.take, hkind, heot]
      rfl
    rw [Found.takeAll, List.foldl_cons, htake]
    refine (ih _ hps).trans ?_
    simp

theorem TSDU.goesOn_packets (t : TSDU) :
    ∀ p ∈ t.init.map Fragment.packet, p.tpdu.kind = 0xF0 ∧ p.tpdu.eot = false := by
  intro p hp
  obtain ⟨f, hf, rfl⟩ := List.mem_map.mp hp
  exact ⟨f.isData, t.goesOn f hf⟩

theorem TSDU.packets_eq (t : TSDU) : t.packets = t.init.map Fragment.packet ++ [t.last.packet] := by
  rw [packets, List.map_append]
  rfl

/-- A complete item, after complete items. -/
theorem Found.takeAll_item (s : Found) (hs : s.tsdu = []) (i : Item) :
    s.takeAll i.packets =
      { s with
        pdus := s.pdus ++ i.s7.toList
        cr := s.cr + if i.isCR then 1 else 0
        cc := s.cc + if i.isCC then 1 else 0 } := by
  cases i with
  | control c =>
    show s.take c.packet.tpdu = _
    have hkind := c.notData
    rw [Found.take, if_neg hkind]
    simp only [Item.s7, Item.isCR, Item.isCC, Item.isKind, beq_iff_eq, Option.toList_none, List.append_nil]
    by_cases hcr : c.packet.tpdu.kind = 0xE0
    · rw [if_pos hcr, if_pos hcr, if_neg (by rw [hcr]; decide)]
      rfl
    · rw [if_neg hcr, if_neg hcr]
      by_cases hcc : c.packet.tpdu.kind = 0xD0
      · rw [if_pos hcc, if_pos hcc]
        rfl
      · rw [if_neg hcc, if_neg hcc]
        rfl
  | tsdu t =>
    rw [Item.packets, t.packets_eq, takeAll_append, takeAll_goesOn s t.goesOn_packets]
    show Found.take _ t.last.packet.tpdu = _
    have hdata : t.data = (t.init.map Fragment.packet).flatMap (fun p => p.tpdu.data) ++ t.last.packet.tpdu.data := by
      simp [TSDU.data, t.packets_eq]
    rw [Found.take, t.last.isData, t.ends, Item.s7, hdata, hs]
    rfl

/-- The whole packets of an item that is not complete. -/
theorem Found.takeAll_unfinished (s : Found) (h : k < i.size) :
    s.takeAll (whole TPKT.size i.packets k) =
      { s with tsdu := s.tsdu ++ (whole TPKT.size i.packets k).flatMap fun p => p.tpdu.data } := by
  refine s.takeAll_goesOn ?_
  cases i with
  | control c =>
    have hlt : ¬c.packet.size ≤ k := by
      simp only [Item.size, Item.packets, total_cons, total_nil] at h
      omega
    rw [Item.packets, whole, if_neg hlt]
    exact List.forall_mem_nil _
  | tsdu t =>
    -- The last fragment is not among them.
    have hinit : whole TPKT.size t.packets k = whole TPKT.size (t.init.map Fragment.packet) k := by
      simp only [Item.size, Item.packets, t.packets_eq, total_append, total_cons, total_nil] at h
      rw [t.packets_eq]
      by_cases hfits : total TPKT.size (t.init.map Fragment.packet) ≤ k
      · have hlast : whole TPKT.size [t.last.packet] (k - total TPKT.size (t.init.map Fragment.packet)) = [] :=
          if_neg (by omega)
        rw [(whole_append_of_le _ hfits).1, whole_of_le hfits, hlast, List.append_nil]
      · exact (whole_append_of_lt _ (Nat.not_le.mp hfits)).1
    intro p hp
    rw [Item.packets, hinit] at hp
    exact t.goesOn_packets p (whole_sublist.subset hp)

/-- What a beginning of items holds. By induction on the items: complete ones add what they are, and the first that is
    not complete leaves its data so far. -/
theorem Found.takeAll_items (s : Found) (hs : s.tsdu = []) :
    s.takeAll (whole TPKT.size (items.flatMap Item.packets) k) =
      { tsdu := openTSDU items k
        pdus := s.pdus ++ (whole Item.size items k).filterMap Item.s7
        cr := s.cr + (whole Item.size items k).countP Item.isCR
        cc := s.cc + (whole Item.size items k).countP Item.isCC } := by
  induction items generalizing s k with
  | nil => simp [Found.takeAll, whole, openTSDU, ← hs]
  | cons i items ih =>
    rw [List.flatMap_cons, openTSDU, whole]
    by_cases hfits : i.size ≤ k
    · rw [(whole_append_of_le _ hfits).1, takeAll_append, takeAll_item s hs, if_pos hfits, if_pos hfits]
      refine Eq.trans (ih (k := k - i.size) _ ?_) ?_
      · exact hs
      · cases hpdu : i.s7 <;> simp [hpdu, List.countP_cons] <;> omega
    · rw [(whole_append_of_lt _ (Nat.not_le.mp hfits)).1, takeAll_unfinished s (Nat.not_le.mp hfits), if_neg hfits,
        if_neg hfits, hs]
      simp

/-- What `pdus` makes of a beginning of items. -/
theorem pdus_items {c : Chunk} (fromClient : Bool) (h : c.data <+: items.flatMap Item.wire) :
    ∃ r, pdus c fromClient = .ok r ∧
      r.out.map PDU.data = (whole Item.size items c.data.length).filterMap Item.s7 ∧
      r.cr = (whole Item.size items c.data.length).countP Item.isCR ∧
      r.cc = (whole Item.size items c.data.length).countP Item.isCC ∧
      (r.dropped = 0 ↔ leftover TPKT.size (items.flatMap Item.packets) c.data.length = 0 ∧
        openTSDU items c.data.length = []) := by
  have hwire : items.flatMap Item.wire = (items.flatMap Item.packets).flatMap TPKT.wire := by
    rw [List.flatMap_assoc]
    rfl
  rw [hwire] at h
  obtain ⟨s, hfound, hloop⟩ := pdusFrom_packets fromClient (Nat.zero_le _) h {}
  rw [Nat.sub_zero, Found.takeAll_items _ rfl] at hfound
  rw [Nat.sub_zero] at hloop
  obtain ⟨htsdu, hout, hcr, hcc⟩ := Found.mk.inj hfound
  simp only [Joining.found, List.map_nil, List.nil_append, Nat.zero_add] at hout hcr hcc
  refine ⟨_, hloop, ?_⟩
  split_ifs with hleft
  · refine ⟨hout, hcr, hcc, ?_⟩
    rw [← htsdu, Joining.finish, Joining.unfinished]
    simp [hleft]
  · refine ⟨hout, hcr, hcc, ?_⟩
    simp [Joining.cut, hleft]

end Items

/-- Splitting gets the PDUs back. For all items, framed and laid end to end, and for every beginning of that run: no
    error; the S7 PDUs among the TSDUs whose last packet is complete, in order; the complete connect requests and
    confirms counted; and nothing dropped exactly when the run ends where a packet ends and no TSDU has data but not
    its end. -/
theorem pdus_recovers {items : List Item} {c : Chunk} (fromClient : Bool) (h : c.data <+: items.flatMap Item.wire) :
    ∃ r, pdus c fromClient = .ok r ∧
      r.out.map PDU.data = (whole Item.size items c.data.length).filterMap Item.s7 ∧
      r.cr = (whole Item.size items c.data.length).countP Item.isCR ∧
      r.cc = (whole Item.size items c.data.length).countP Item.isCC ∧
      (r.dropped = 0 ↔ (∃ m, c.data.length = startAt TPKT.size (items.flatMap Item.packets) m) ∧
        openTSDU items c.data.length = []) := by
  obtain ⟨r, hr, hout, hcr, hcc, hdropped⟩ := pdus_items fromClient h
  exact ⟨r, hr, hout, hcr, hcc, hdropped.trans (and_congr_left' leftover_eq_zero)⟩

/-- A connect request. -/
def connectItem : Item :=
  .control ⟨⟨0, 6, 0xE0, [0, 0, 0, 1, 0], by decide, by decide, by decide, by decide, by decide⟩, by decide⟩

/-- A data TPDU with the shortest header, in its packet. -/
def fragment (mark : UInt8) (data : Bytes) (h : data.length + 7 < 65536) : Fragment where
  packet := ⟨0, 2, 0xF0, mark :: data, Nat.succ_pos _, h, by decide, Nat.le_add_left .., fun _ => Nat.le_refl 2⟩
  isData := show (0xF0 : UInt8) &&& 0xF0 = 0xF0 by decide

/-- An S7 PDU of four bytes in two data TPDUs. -/
def s7Item : Item :=
  .tsdu ⟨[fragment 0x00 [0x32, 0x01] (by decide)], fragment 0x80 [0x00, 0x00] (by decide),
    List.forall_mem_singleton.mpr (by decide), by decide⟩

/-- The request, a PDU, and the first fragment of another one. -/
def cutRun : Chunk where
  data := ([connectItem, s7Item, s7Item].flatMap Item.wire).take 38
  frames := List.replicate 38 1
  sized := by decide

theorem pdus_recovers_cut :
    ∃ r, pdus cutRun true = .ok r ∧ r.out.map PDU.data = [[0x32, 0x01, 0x00, 0x00]] ∧ r.cr = 1 ∧ r.cc = 0 ∧
      r.dropped ≠ 0 := by
  have hprefix : cutRun.data <+: [connectItem, s7Item, s7Item].flatMap Item.wire := List.take_prefix _ _
  obtain ⟨r, hr, hout, hcr, hcc, hdropped⟩ := pdus_recovers true hprefix
  have hopen : openTSDU [connectItem, s7Item, s7Item] cutRun.data.length = [0x32, 0x01] := by decide
  refine ⟨r, hr, hout.trans (by decide), hcr.trans (by decide), hcc.trans (by decide), ?_⟩
  rw [Ne, hdropped, hopen]
  simp

end S7Comm.Capture
