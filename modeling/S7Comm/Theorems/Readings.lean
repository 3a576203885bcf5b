import S7Comm.Theorems.Splitting

/-! Any run of bytes, not only a beginning of well-formed traffic. A run is split without an error exactly when it reads
    as packets up to a piece that is cut short; what is found is then what these packets say. -/

namespace S7Comm.Capture
open Go

/-! ### Readings -/

/-- Bytes read as traffic: whole packets, and after them a piece that is cut short, which may be empty. The data packets
    up to the last end mark make TSDUs, and those after it the beginning of one more. -/
structure Reading where
  packets : List TPKT
  tail : Bytes
  tsdus : List TSDU
  opened : List Fragment
  cutShort : CutShort tail
  joined : packets.filter (fun p => p.tpdu.kind == 0xF0) =
    tsdus.flatMap TSDU.packets ++ opened.map Fragment.packet
  unmarked : ∀ f ∈ opened, f.packet.tpdu.eot = false

namespace Reading
variable (R : Reading)

def bytes : Bytes := R.packets.flatMap TPKT.wire ++ R.tail

/-- The S7 PDUs among the TSDUs. -/
def pdus : List Bytes := R.tsdus.filterMap fun t => s7PDU t.data

/-- The data of the TSDU that has no end. -/
def openData : Bytes := R.opened.flatMap fun f => f.packet.tpdu.data

/-- What the end of the bytes cuts off: a packet, and a TSDU of which there is data. -/
def cutOff : Nat := (if R.tail = [] then 0 else 1) + (if R.openData = [] then 0 else 1)

end Reading

/-! ### What is found in packets -/

section Found
variable {s : Found} {p : TPKT} {ps : List TPKT}

/-- The data of a TSDU, and the PDUs: what data packets change. -/
def Found.parts (s : Found) : Bytes × List Bytes := (s.tsdu, s.pdus)

theorem Found.parts_take_control (h : p.tpdu.kind ≠ 0xF0) : (s.take p.tpdu).parts = s.parts := by
  unfold Found.take
  rw [if_neg h]
  split_ifs <;> rfl

theorem Found.take_data (s : Found) (h : p.tpdu.kind = 0xF0) :
    s.take p.tpdu =
      if p.tpdu.eot then { s with tsdu := [], pdus := s.pdus ++ (s7PDU (s.tsdu ++ p.tpdu.data)).toList }
      else { s with tsdu := s.tsdu ++ p.tpdu.data } := by
  unfold Found.take
  rw [h]
  rfl

theorem Found.parts_take {s' : Found} (h : s.parts = s'.parts) (p : TPKT) :
    (s.take p.tpdu).parts = (s'.take p.tpdu).parts := by
  by_cases hkind : p.tpdu.kind = 0xF0
  · obtain ⟨htsdu, hpdus⟩ := Prod.mk.inj h
    rw [take_data s hkind, take_data s' hkind, htsdu, hpdus]
    split_ifs <;> rfl
  · rw [parts_take_control hkind, parts_take_control hkind, h]

theorem Found.parts_takeAll {s' : Found} (h : s.parts = s'.parts) (ps : List TPKT) :
    (s.takeAll ps).parts = (s'.takeAll ps).parts := by
  induction ps generalizing s s' with
  | nil => exact h
  | cons p ps ih => exact ih (parts_take h p)

/-- Packets without data change neither the TSDU nor the PDUs. -/
theorem Found.parts_takeAll_filter (s : Found) (ps : List TPKT) :
    (s.takeAll ps).parts = (s.takeAll (ps.filter fun p => p.tpdu.kind == 0xF0)).parts := by
  induction ps generalizing s with
  | nil => rfl
  | cons p ps ih =>
    by_cases hkind : p.tpdu.kind = 0xF0
    · rw [List.filter_cons_of_pos (by simpa using hkind)]
      exact ih (s.take p.tpdu)
    · rw [List.filter_cons_of_neg (by simpa using hkind)]
      exact (ih (s.take p.tpdu)).trans (parts_takeAll (parts_take_control hkind) _)

theorem Found.takeAll_tsdus (hs : s.tsdu = []) (ts : List TSDU) :
    (s.takeAll (ts.flatMap TSDU.packets)).parts = ([], s.pdus ++ ts.filterMap fun t => s7PDU t.data) := by
  induction ts generalizing s with
  | nil =>
    rw [List.flatMap_nil, List.filterMap_nil, List.append_nil, ← hs]
    rfl
  | cons t ts ih =>
    rw [List.flatMap_cons, takeAll_append, show t.packets = (Item.tsdu t).packets from rfl, takeAll_item s hs]
    refine Eq.trans (ih (s := { s with pdus := s.pdus ++ (Item.tsdu t).s7.toList, cr := _, cc := _ }) hs) ?_
    rw [show (Item.tsdu t).s7 = s7PDU t.data from rfl]
    cases hpdu : s7PDU t.data <;> simp [hpdu]

theorem Reading.parts_takeAll (R : Reading) : (({} : Found).takeAll R.packets).parts = (R.openData, R.pdus) := by
  have hopen : ∀ p ∈ R.opened.map Fragment.packet, p.tpdu.kind = 0xF0 ∧ p.tpdu.eot = false := by
    intro p hp
    obtain ⟨f, hf, rfl⟩ := List.mem_map.mp hp
    exact ⟨f.isData, R.unmarked f hf⟩
  obtain ⟨htsdu, hpdus⟩ := Prod.mk.inj (Found.takeAll_tsdus (s := {}) rfl R.tsdus)
  rw [Found.parts_takeAll_filter, R.joined, Found.takeAll_append, Found.takeAll_goesOn _ hopen]
  simp only [Found.parts, htsdu, hpdus, Reading.openData, Reading.pdus, List.nil_append, List.flatMap_map]

end Found

/-! ### A run that reads as packets -/

section Reading
variable {c : Chunk} {off : Nat}

/-- The loop takes the packets and ends at the piece after them. By induction on the packets. -/
theorem pdusFrom_tail (fromClient : Bool) {ps : List TPKT} {tail : Bytes} (hcut : CutShort tail)
    (hoff : off ≤ c.data.length) (h : c.data.drop off = ps.flatMap TPKT.wire ++ tail) (s : Joining) :
    ∃ s' : Joining, s'.found = s.found.takeAll ps ∧
      pdusFrom c fromClient off s = .ok (if tail = [] then s'.finish else s'.cut) := by
  induction ps generalizing off s with
  | nil =>
    rw [List.flatMap_nil, List.nil_append] at h
    refine ⟨s, rfl, ?_⟩
    have hlen : c.data.length - off = tail.length := by rw [← h, List.length_drop]
    split_ifs with htail
    · rw [htail, List.length_nil] at hlen
      exact pdusFrom_end (by omega) s
    · have := List.length_pos_iff.mpr htail
      exact pdusFrom_cut (by omega) (h ▸ hcut) s
  | cons p ps ih =>
    rw [List.flatMap_cons, List.append_assoc] at h
    have hat : StandsAt c.data off p.wire :=
      ⟨c.data.take off, ps.flatMap TPKT.wire ++ tail, by rw [← h, List.take_append_drop], by simp [hoff]⟩
    obtain ⟨s₁, hfound, hround⟩ := pdusFrom_packet fromClient hat s
    have hnext : c.data.drop (off + p.size) = ps.flatMap TPKT.wire ++ tail := by
      rw [← List.drop_drop, h, ← p.length_wire, List.drop_left]
    obtain ⟨s', hfound', hloop⟩ := ih (TPKT.size_le hat) hnext s₁
    refine ⟨s', ?_, hround.trans hloop⟩
    rw [hfound', hfound]
    rfl

/-- What is found in a run that has a reading. -/
theorem pdus_reading (fromClient : Bool) {R : Reading} (h : R.bytes = c.data) :
    ∃ s, pdus c fromClient = .ok s ∧ s.out.map PDU.data = R.pdus ∧ s.dropped = R.cutOff := by
  obtain ⟨s, hfound, hloop⟩ := pdusFrom_tail fromClient R.cutShort (Nat.zero_le _) h.symm {}
  have hparts : s.found.parts = (R.openData, R.pdus) := by
    rw [hfound]
    exact R.parts_takeAll
  obtain ⟨htsdu, hout⟩ := Prod.mk.inj hparts
  refine ⟨_, hloop, ?_⟩
  have hopen : s.unfinished = if R.openData = [] then 0 else 1 := by
    rw [← htsdu]
    show (if s.tsdu.length > 0 then 1 else 0) = if s.tsdu = [] then 0 else 1
    by_cases hempty : s.tsdu = []
    · rw [if_neg (by simp [hempty]), if_pos hempty]
    · rw [if_pos (List.length_pos_iff.mpr hempty), if_neg hempty]
  rw [Reading.cutOff, ← hopen]
  split_ifs
  · exact ⟨hout, (Nat.zero_add _).symm⟩
  · exact ⟨hout, rfl⟩

end Reading

/-! ### Nothing else is split -/

section Exact
variable {c : Chunk} {fromClient : Bool} {off n : Nat}

/-- The TPDU that the loop has taken is one. -/
theorem exists_tpdu {s s' : Joining} (hn : 7 ≤ n) (hn' : n < 65536) (h : takeTPDU c fromClient off n s = .ok s') :
    ∃ t : TPDU, StandsAt c.data (off + 4) t.bytes ∧ t.rest.length + 6 = n := by
  unfold takeTPDU at h
  obtain ⟨tpdu, htpdu, h⟩ := Outcome.bind_eq_ok.mp h
  obtain ⟨hat, hlen⟩ := slice_eq_ok_iff.mp htpdu
  obtain ⟨li, code, x, more, rfl⟩ : ∃ li code x more, tpdu = li :: code :: x :: more := by
    rcases tpdu with _ | ⟨li, _ | ⟨code, _ | ⟨x, more⟩⟩⟩
    · simp only [List.length_nil] at hlen
      omega
    · simp only [List.length_cons, List.length_nil] at hlen
      omega
    · simp only [List.length_cons, List.length_nil] at hlen
      omega
    · exact ⟨li, code, x, more, rfl⟩
  simp only [List.length_cons] at hlen
  rw [show indexAt (li :: code :: x :: more) 0 = .ok li from rfl, Outcome.ok_bind] at h
  dsimp only at h
  split at h
  · cases h
  rename_i hli
  rw [show indexAt (li :: code :: x :: more) 1 = .ok code from rfl, Outcome.ok_bind] at h
  simp only [List.length_cons, not_or] at hli
  -- Of the checks only the one on data TPDUs is left.
  have hmarked : code &&& 0xF0 = 0xF0 → 2 ≤ li.toNat := by
    intro hkind
    by_contra hlt
    rw [hkind, if_neg (by decide), if_neg (by decide), if_pos rfl, if_pos (by omega)] at h
    cases h
  refine ⟨⟨li, code, x :: more, Nat.succ_pos _, ?_, by omega, ?_, hmarked⟩, hat, ?_⟩
  · rw [List.length_cons]
    omega
  · rw [List.length_cons]
    omega
  · rw [List.length_cons]
    omega

/-- A round of the loop that does not end it has taken a packet. -/
theorem exists_packet {s s' : Joining} {w : UInt16} (hword : wordAt c.data (off + 2) = .ok w) (hn : 7 ≤ w.toNat)
    (hversion : indexAt c.data off = .ok 3) (h : takeTPDU c fromClient off w.toNat s = .ok s') :
    ∃ p : TPKT, StandsAt c.data off p.wire ∧ p.size = w.toNat := by
  obtain ⟨t, hat, hlen⟩ := exists_tpdu hn (UInt16.toNat_lt w) h
  have hle := hat.le
  obtain ⟨reserved, hreserved⟩ : ∃ reserved, indexAt c.data (off + 1) = .ok reserved :=
    ⟨_, index_of_lt (by omega)⟩
  refine ⟨⟨reserved, t⟩, ?_, hlen⟩
  have hsize : UInt16.ofNat (TPKT.mk reserved t).size = w := by
    rw [TPKT.size, hlen, UInt16.ofNat_toNat]
  rw [TPKT.wire, hsize]
  refine standsAt_cons.mpr ⟨index_eq_ok_iff.mp hversion, standsAt_cons.mpr ⟨index_eq_ok_iff.mp hreserved, ?_⟩⟩
  refine standsAt_append.mpr ⟨uint16At_eq_ok_iff.mp hword, ?_⟩
  rw [length_putUint16]
  exact hat

/-- A round of a loop that ends without an error is at a piece that is cut short, which may be empty, or takes a packet
    and goes on after it. -/
theorem pdusFrom_eq_ok {s : Joining} {r : Split} (hoff : off ≤ c.data.length)
    (h : pdusFrom c fromClient off s = .ok r) :
    CutShort (c.data.drop off) ∨
      ∃ (p : TPKT) (s' : Joining), StandsAt c.data off p.wire ∧ pdusFrom c fromClient (off + p.size) s' = .ok r := by
  rw [pdusFrom] at h
  split at h
  swap
  · refine .inl (.inl ?_)
    rw [List.length_drop]
    omega
  split at h
  · exact .inl (.inl (by rwa [List.length_drop]))
  obtain ⟨w, hword, h⟩ := Outcome.bind_eq_ok.mp h
  dsimp only at h
  split at h
  · rename_i hlong hpast
    refine .inl (.inr ⟨w, ?_, by rwa [List.length_drop]⟩)
    refine uint16At_eq_ok_iff.mpr ((standsAt_drop hoff).within (uint16At_eq_ok_iff.mp hword) ?_)
    rw [length_putUint16, List.length_drop]
    omega
  obtain ⟨version, hversion, h⟩ := Outcome.bind_eq_ok.mp h
  split at h
  · cases h
  rename_i hthree
  split at h
  · cases h
  rename_i hseven
  obtain ⟨s', htake, h⟩ := Outcome.bind_eq_ok.mp h
  rw [not_not.mp hthree] at hversion
  obtain ⟨p, hat, hsize⟩ := exists_packet hword (by omega) hversion htake
  exact .inr ⟨p, s', hat, hsize ▸ h⟩

/-- A run that is split reads as packets. By induction on what is left of it. -/
theorem exists_packets {s : Joining} {r : Split} (hoff : off ≤ c.data.length)
    (h : pdusFrom c fromClient off s = .ok r) :
    ∃ (ps : List TPKT) (tail : Bytes), c.data.drop off = ps.flatMap TPKT.wire ++ tail ∧ CutShort tail := by
  induction hleft : c.data.length - off using Nat.strong_induction_on generalizing off s with
  | _ left ih =>
    rcases pdusFrom_eq_ok hoff h with hcut | ⟨p, s', hat, h⟩
    · exact ⟨[], c.data.drop off, rfl, hcut⟩
    have hle := TPKT.size_le hat
    have hpos := p.size_bounds
    obtain ⟨ps, tail, hrest, hcut⟩ := ih (c.data.length - (off + p.size)) (by omega) hle h rfl
    refine ⟨p :: ps, tail, ?_, hcut⟩
    have hfirst := hat.drop
    rw [p.length_wire] at hfirst
    rw [List.flatMap_cons, List.append_assoc, ← hrest, ← List.drop_drop]
    conv_lhs => rw [← List.take_append_drop p.size (c.data.drop off), hfirst]

/-- Data packets make TSDUs and the beginning of one more. By induction from the end: a packet with the mark ends what
    was open. -/
theorem exists_tsdus (ps : List TPKT) (h : ∀ p ∈ ps, p.tpdu.kind = 0xF0) :
    ∃ (ts : List TSDU) (opened : List Fragment), ps = ts.flatMap TSDU.packets ++ opened.map Fragment.packet ∧
      ∀ f ∈ opened, f.packet.tpdu.eot = false := by
  induction ps using List.reverseRecOn with
  | nil => exact ⟨[], [], rfl, List.forall_mem_nil _⟩
  | append_singleton ps p ih =>
    obtain ⟨hps, hp⟩ := List.forall_mem_append.mp h
    obtain ⟨ts, opened, rfl, hopen⟩ := ih hps
    cases heot : p.tpdu.eot with
    | true =>
      refine ⟨ts ++ [⟨opened, ⟨p, hp p (List.mem_singleton_self p)⟩, hopen, heot⟩], [], ?_, List.forall_mem_nil _⟩
      simp [TSDU.packets]
    | false =>
      refine ⟨ts, opened ++ [⟨p, hp p (List.mem_singleton_self p)⟩], by simp, ?_⟩
      exact List.forall_mem_append.mpr ⟨hopen, List.forall_mem_singleton.mpr heot⟩

theorem exists_reading {r : Split} (h : pdus c fromClient = .ok r) : ∃ R : Reading, R.bytes = c.data := by
  obtain ⟨ps, tail, hdata, hcut⟩ := exists_packets (Nat.zero_le _) h
  obtain ⟨ts, opened, hjoined, hopen⟩ := exists_tsdus (ps.filter fun p => p.tpdu.kind == 0xF0) fun p hp =>
    beq_iff_eq.mp (List.mem_filter.mp hp).2
  exact ⟨⟨ps, tail, ts, opened, hcut, hjoined, hopen⟩, hdata.symm⟩

end Exact
end S7Comm.Capture
