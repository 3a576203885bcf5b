import S7Comm.Theorems.Readings
import S7Comm.Theorems.Reassembly

/-! Gaps in recorded traffic. The bytes on each side of a gap are split on their own, from the first byte on, as if a
    packet and a TSDU started there. Gaps do no harm exactly when every run still reads as traffic, with no PDUs but
    those of the flow, and enough of it is cut off at the ends of runs. This is so where runs start with an item, or
    with any packet of an item that they do not reach the end of. -/

namespace S7Comm.Capture
open Go

/-! ### PDUs that lost bytes -/

section Lost
variable (items : List Item)

/-- The offsets of the data of a packet that starts at `o`. -/
def TPKT.dataRange (p : TPKT) (o : Nat) : Nat × Nat := (o + 5 + p.tpdu.li.toNat, o + p.size)

/-- The offsets of the data of packets, the first of which starts at `o`. -/
def dataRanges : (o : Nat) → List TPKT → List (Nat × Nat)
  | _, [] => []
  | o, p :: ps => p.dataRange o :: dataRanges (o + p.size) ps

/-- The byte at `x` belongs to the S7 PDU that the item with number `j` carries. -/
def PDUByte (j x : Nat) : Prop :=
  ∃ i, items[j]? = some i ∧ i.s7.isSome ∧ Covers (dataRanges (startAt Item.size items j) i.packets) x

/-- The PDU of item `j` lost some but not all of its bytes. -/
structure PartlyLost (cuts : List (Cut (items.flatMap Item.wire))) (j : Nat) : Prop where
  kept : ∃ x, PDUByte items j x ∧ Captured cuts x
  lost : ∃ x, PDUByte items j x ∧ ¬Captured cuts x

/-- No error, no PDU that is not one of the flow, and a count of at least the PDUs that were cut. -/
def GapsTolerated (cuts : List (Cut (items.flatMap Item.wire))) (f : Flow) (fromClient : Bool) : Prop :=
  ∃ r, flowPDUs f fromClient = .ok r ∧ (∀ p ∈ r.1.out, p.data ∈ items.filterMap Item.s7) ∧
    ∀ js : List Nat, js.Nodup → (∀ j ∈ js, PartlyLost items cuts j) → js.length ≤ r.1.dropped

/-- The bytes from `lo` to `hi` were captured, and those next to them were not. -/
structure IsRun {B : Bytes} (cuts : List (Cut B)) (lo hi : Nat) : Prop where
  lt : lo < hi
  captured : ∀ x, lo ≤ x → x < hi → Captured cuts x
  before : ∀ x, x + 1 = lo → ¬Captured cuts x
  after : ¬Captured cuts hi

/-- The bytes from `lo` to `hi` start where an item starts; or start where a packet of an item starts, and end before
    the item does; or lie in one item and are cut short at once. -/
def Readable (lo hi : Nat) : Prop :=
  (∃ m, lo = startAt Item.size items m) ∨
    (∃ m i k, items[m]? = some i ∧ lo = startAt Item.size items m + startAt TPKT.size i.packets k ∧
      hi < startAt Item.size items (m + 1)) ∨
    (∃ m, startAt Item.size items m ≤ lo ∧ hi ≤ startAt Item.size items (m + 1)) ∧
      CutShort (((items.flatMap Item.wire).drop lo).take (hi - lo))

/-- The runs, each with a reading of its bytes: what is read as a PDU is one of the flow, and what is cut off at the ends
    of runs is no less than the PDUs that lost a part. -/
structure Legible (cuts : List (Cut (items.flatMap Item.wire))) (rs : List (Nat × Nat)) (readings : List Reading) :
    Prop where
  bytes : readings.map Reading.bytes = rs.map fun r => ((items.flatMap Item.wire).drop r.1).take (r.2 - r.1)
  known : ∀ R ∈ readings, ∀ b ∈ R.pdus, b ∈ items.filterMap Item.s7
  counted : ∀ js : List Nat, js.Nodup → (∀ j ∈ js, PartlyLost items cuts j) →
    js.length ≤ total Reading.cutOff readings

end Lost

section Start
variable {B : Bytes} (syn : Bool) (cuts : List (Cut B))

/-- All segments are so near to the place that is taken as the start of the flow that sequence numbers order them. -/
def Comparable : Prop := ∀ c ∈ cuts.head?, ∀ d ∈ cuts, d.Near (startOff syn c)

/-- The byte at `x` was captured and does not lie before the place that is taken as the start of the flow. -/
def Kept (x : Nat) : Prop := Captured cuts x ∧ ∀ c ∈ cuts.head?, startOff syn c ≤ x

end Start

/-! ### Where items and their data are -/

section Places
variable {items : List Item} {i : Item} {ps : List TPKT} {j k o x : Nat}

theorem length_flatMap_wire (ps : List TPKT) : (ps.flatMap TPKT.wire).length = total TPKT.size ps := by
  simp [List.length_flatMap, total]

/-- The wire from the start of an item on is that of the items from there on. -/
theorem drop_startAt (items : List Item) (m : Nat) :
    (items.flatMap Item.wire).drop (startAt Item.size items m) = (items.drop m).flatMap Item.wire := by
  induction items generalizing m with
  | nil => simp
  | cons i items ih =>
    cases m with
    | zero => rfl
    | succ m =>
      have hlen : i.wire.length = i.size := length_flatMap_wire i.packets
      rw [startAt_cons_succ, List.flatMap_cons, ← hlen, List.drop_length_add_append, ih, List.drop_succ_cons]

theorem startAt_drop (items : List Item) (m n : Nat) :
    startAt Item.size items (m + n) = startAt Item.size items m + startAt Item.size (items.drop m) n := by
  rw [startAt, List.take_add, total_append]
  rfl

/-- Data of packets lies where the packets are. -/
theorem dataRanges_bounds (h : Covers (dataRanges o ps) x) : o ≤ x ∧ x < o + total TPKT.size ps := by
  induction ps generalizing o with
  | nil => exact absurd h covers_nil
  | cons p ps ih =>
    rw [total_cons]
    rcases covers_cons.mp h with ⟨hle, hlt⟩ | h
    · simp only [TPKT.dataRange] at hle hlt
      omega
    · obtain ⟨hle, hlt⟩ := ih h
      omega

theorem startAt_succ (h : items[j]? = some i) :
    startAt Item.size items (j + 1) = startAt Item.size items j + i.size := by
  rw [startAt, List.take_add_one, h, total_append]
  rfl

/-- A byte of a PDU lies in the item of the PDU. -/
theorem PDUByte.inItem (h : PDUByte items j x) :
    startAt Item.size items j ≤ x ∧ x < startAt Item.size items (j + 1) := by
  obtain ⟨i, hi, -, hx⟩ := h
  rw [startAt_succ hi]
  exact dataRanges_bounds hx

/-- Whole packets up to a place after a byte of data hold data. -/
theorem whole_data_ne_nil (hend : leftover TPKT.size ps k = 0) (hx : Covers (dataRanges o ps) x) (hlt : x < o + k) :
    (whole TPKT.size ps k).flatMap (fun p => p.tpdu.data) ≠ [] := by
  induction ps generalizing o k with
  | nil => exact absurd hx covers_nil
  | cons p ps ih =>
    rw [leftover] at hend
    rw [whole]
    split_ifs at hend ⊢ with hfits
    · rw [List.flatMap_cons]
      rcases covers_cons.mp hx with ⟨hle', hlt'⟩ | hx
      · refine List.append_ne_nil_of_left_ne_nil (List.ne_nil_of_length_pos ?_) _
        simp only [TPKT.dataRange, TPKT.size] at hle' hlt'
        rw [TPDU.data, List.length_drop, TPDU.length_bytes]
        omega
      · exact List.append_ne_nil_of_right_ne_nil _ (ih hend hx (by omega))
    · have := (dataRanges_bounds hx).1
      omega

/-- Where a run ends inside an item, what is left open is what the item has so far. -/
theorem openTSDU_inside (hi : items[j]? = some i) (hle : startAt Item.size items j ≤ k)
    (hlt : k < startAt Item.size items (j + 1)) :
    openTSDU items k =
        (whole TPKT.size i.packets (k - startAt Item.size items j)).flatMap (fun p => p.tpdu.data) ∧
      leftover TPKT.size (items.flatMap Item.packets) k =
        leftover TPKT.size i.packets (k - startAt Item.size items j) := by
  induction items generalizing j k with
  | nil => cases hi
  | cons i' items ih =>
    rw [openTSDU, List.flatMap_cons]
    cases j with
    | zero =>
      cases hi
      rw [startAt_cons_succ, startAt_zero, Nat.add_zero] at hlt
      rw [startAt_zero, Nat.sub_zero, if_neg (by omega), (whole_append_of_lt _ hlt).2]
      exact ⟨rfl, rfl⟩
    | succ j =>
      rw [startAt_cons_succ] at hle hlt ⊢
      have hfits : i'.size ≤ k := by omega
      rw [if_pos hfits, (whole_append_of_le _ hfits).2, ← Nat.sub_sub]
      exact ih hi (by omega) (by omega)

/-- The packets of an item from one of them on, as an item. -/
theorem exists_rest (i : Item) {k : Nat} (h : startAt TPKT.size i.packets k < i.size) :
    ∃ i' : Item, i'.packets = i.packets.drop k := by
  cases i with
  | control c =>
    cases k with
    | zero => exact ⟨.control c, rfl⟩
    | succ k => simp [startAt, Item.size, Item.packets] at h
  | tsdu t =>
    have hk : k ≤ t.init.length := by
      by_contra hlt
      have hall : (Item.tsdu t).packets.take k = (Item.tsdu t).packets :=
        List.take_of_length_le (by simp [Item.packets, TSDU.packets]; omega)
      rw [startAt, hall] at h
      exact absurd h (Nat.lt_irrefl _)
    refine ⟨.tsdu ⟨t.init.drop k, t.last, fun f hf => t.goesOn f (List.mem_of_mem_drop hf), t.ends⟩, ?_⟩
    rw [Item.packets, TSDU.packets, Item.packets, TSDU.packets, ← List.map_drop, List.drop_append_of_le_length hk]

/-- Data that lies after some packets is that of the others. -/
theorem covers_dataRanges_drop (hx : Covers (dataRanges o ps) x) (hle : o + startAt TPKT.size ps k ≤ x) :
    Covers (dataRanges (o + startAt TPKT.size ps k) (ps.drop k)) x := by
  induction ps generalizing o k with
  | nil => exact absurd hx covers_nil
  | cons p ps ih =>
    cases k with
    | zero => exact hx
    | succ k =>
      rw [startAt_cons_succ, ← Nat.add_assoc] at hle ⊢
      refine ih ?_ hle
      rcases covers_cons.mp hx with ⟨-, hlt⟩ | hx
      · simp only [TPKT.dataRange] at hlt
        omega
      · exact hx

theorem drop_startAt_packets (ps : List TPKT) (k : Nat) :
    (ps.flatMap TPKT.wire).drop (startAt TPKT.size ps k) = (ps.drop k).flatMap TPKT.wire := by
  conv_lhs => rw [← List.take_append_drop k ps, List.flatMap_append]
  rw [startAt, List.take_append_drop, ← length_flatMap_wire, List.drop_left]

end Places

/-! ### One run -/

section Run
variable {items : List Item} {cuts : List (Cut (items.flatMap Item.wire))} {lo hi : Nat} {run : Chunk}

/-- What is found in a run: PDUs of the flow only; and a PDU with a byte in the run that was cut is counted, and is the
    one that the end of the run belongs to. -/
structure RunSplit (items : List Item) (cuts : List (Cut (items.flatMap Item.wire))) (r : Nat × Nat) (s : Split) :
    Prop where
  known : ∀ p ∈ s.out, p.data ∈ items.filterMap Item.s7
  counted : ∀ j, PartlyLost items cuts j → (∃ x, PDUByte items j x ∧ r.1 ≤ x ∧ x < r.2) →
    1 ≤ s.dropped ∧ startAt Item.size items j ≤ r.2 - 1 ∧ r.2 - 1 < startAt Item.size items (j + 1)

/-- A PDU with a byte in a run that starts where an item starts, and with a byte that was not captured, starts in the
    run and ends after it. -/
theorem PartlyLost.ends_after (hrun : IsRun cuts lo hi) {m j x : Nat} (hlo : lo = startAt Item.size items m)
    (hlost : PartlyLost items cuts j) (hbyte : PDUByte items j x) (hx : lo ≤ x) :
    m ≤ j ∧ hi < startAt Item.size items (j + 1) := by
  have hxin := hbyte.inItem
  have hmj : m ≤ j := by
    by_contra hlt
    have := startAt_mono Item.size items (Nat.succ_le_of_lt (Nat.not_le.mp hlt))
    simp only [Nat.succ_eq_add_one] at this
    omega
  refine ⟨hmj, ?_⟩
  obtain ⟨y, hy, hmissing⟩ := hlost.lost
  have hyin := hy.inItem
  have hstart := startAt_mono Item.size items hmj
  by_contra hle
  exact hmissing (hrun.captured y (by omega) (by omega))

/-- A run that starts where an item starts. -/
theorem split_at_item (fromClient : Bool) (h : RunOf cuts (lo, hi) run) (hrun : IsRun cuts lo hi) {m : Nat}
    (hlo : lo = startAt Item.size items m) : ∃ s, pdus run fromClient = .ok s ∧ RunSplit items cuts (lo, hi) s := by
  have hdata : run.data = ((items.drop m).flatMap Item.wire).take (hi - lo) := by
    rw [h.data_eq, hlo, drop_startAt]
  have hlen : run.data.length = hi - lo := by
    have : hi = lo + run.data.length := h.stop
    omega
  obtain ⟨s, hs, hout, -, -, hdropped⟩ := pdus_items fromClient (hdata ▸ List.take_prefix _ _)
  refine ⟨s, hs, fun p hp => ?_, fun j hlost hbyte => ?_⟩
  · have hmem : p.data ∈ s.out.map PDU.data := List.mem_map_of_mem hp
    rw [hout] at hmem
    exact ((whole_sublist.trans (List.drop_sublist m items)).filterMap Item.s7).subset hmem
  · obtain ⟨x, hx, hxlo, hxhi⟩ := hbyte
    obtain ⟨hmj, hend⟩ := hlost.ends_after hrun hlo hx hxlo
    have hxin := hx.inItem
    dsimp only at hxlo hxhi ⊢
    refine ⟨?_, by omega, by omega⟩
    by_contra hnone
    obtain ⟨hleft, hopen⟩ := hdropped.mp (by omega)
    obtain ⟨i, hitem, -, hcovers⟩ := hx
    -- In the items from `m` on, the run ends inside the item with number `j - m`, at the end of a packet.
    obtain ⟨n, rfl⟩ := Nat.exists_eq_add_of_le hmj
    have hitem' : (items.drop m)[n]? = some i := by rw [List.getElem?_drop, hitem]
    have hstart := startAt_drop items m n
    have hstop := startAt_drop items m (n + 1)
    rw [← Nat.add_assoc] at hstop
    obtain ⟨hopen', hleft'⟩ := openTSDU_inside (k := run.data.length) hitem' (by omega) (by omega)
    refine whole_data_ne_nil (hleft'.symm.trans hleft) hcovers ?_ (hopen'.symm.trans hopen)
    omega

/-- A run that is cut short at once and lies in one item. -/
theorem split_cut_short (fromClient : Bool) (h : RunOf cuts (lo, hi) run) (hrun : IsRun cuts lo hi) {m : Nat}
    (hlo : startAt Item.size items m ≤ lo) (hhi : hi ≤ startAt Item.size items (m + 1)) (hcut : CutShort run.data) :
    ∃ s, pdus run fromClient = .ok s ∧ RunSplit items cuts (lo, hi) s := by
  have hlt := hrun.lt
  have hstop : hi = lo + run.data.length := h.stop
  have hpos : 0 < run.data.length := by omega
  refine ⟨Joining.cut {}, pdusFrom_cut hpos hcut {}, nofun, fun j _ hbyte => ?_⟩
  obtain ⟨x, hx, hxlo, hxhi⟩ := hbyte
  dsimp only at hxlo hxhi ⊢
  obtain rfl : j = m := startAt_inj hx.inItem ⟨by omega, by omega⟩
  exact ⟨Nat.le_refl 1, by omega, by omega⟩

/-- What is left of the bytes where a packet of an item starts. -/
theorem drop_in_item {m k : Nat} {i : Item} (hi : items[m]? = some i) (hk : startAt TPKT.size i.packets k ≤ i.size) :
    (items.flatMap Item.wire).drop (startAt Item.size items m + startAt TPKT.size i.packets k) =
      (i.packets.drop k).flatMap TPKT.wire ++ (items.drop (m + 1)).flatMap Item.wire := by
  obtain ⟨hm, rfl⟩ := List.getElem?_eq_some_iff.mp hi
  rw [← List.drop_drop, drop_startAt, List.drop_eq_getElem_cons hm, List.flatMap_cons, List.drop_append_of_le_length,
    Item.wire, drop_startAt_packets]
  rwa [Item.wire, length_flatMap_wire]

/-- A run that starts where a packet of an item starts, and ends before the item does. -/
theorem split_in_item (fromClient : Bool) (h : RunOf cuts (lo, hi) run) (hrun : IsRun cuts lo hi) {m k : Nat} {i : Item}
    (hi' : items[m]? = some i) (hlo : lo = startAt Item.size items m + startAt TPKT.size i.packets k)
    (hend : hi < startAt Item.size items (m + 1)) :
    ∃ s, pdus run fromClient = .ok s ∧ RunSplit items cuts (lo, hi) s := by
  have hlt := hrun.lt
  have hstop : hi = lo + run.data.length := h.stop
  have hnext := startAt_succ hi'
  obtain ⟨rest, hrest⟩ := exists_rest i (k := k) (by omega)
  have hsize : i.size = startAt TPKT.size i.packets k + rest.size := by
    rw [Item.size, Item.size, hrest, startAt, ← total_append, List.take_append_drop]
  -- The bytes of the run are a beginning of the item that is left.
  have hpre : run.data <+: [rest].flatMap Item.wire := by
    have hlen : rest.wire.length = rest.size := length_flatMap_wire rest.packets
    rw [List.flatMap_singleton, h.data_eq, hlo, drop_in_item hi' (by omega), ← hrest, ← Item.wire,
      List.take_append_of_le_length (by dsimp only; omega)]
    exact List.take_prefix _ _
  obtain ⟨s, hs, hout, -, -, hdropped⟩ := pdus_items fromClient hpre
  have hopen : ¬rest.size ≤ run.data.length := by omega
  rw [whole, if_neg hopen, List.filterMap_nil, List.map_eq_nil_iff] at hout
  rw [openTSDU, if_neg hopen, List.flatMap_singleton] at hdropped
  refine ⟨s, hs, fun p hp => ?_, fun j _ hbyte => ?_⟩
  · rw [hout] at hp
    cases hp
  · obtain ⟨x, hx, hxlo, hxhi⟩ := hbyte
    dsimp only at hxlo hxhi ⊢
    obtain rfl : j = m := startAt_inj hx.inItem ⟨by omega, by omega⟩
    refine ⟨?_, by omega, by omega⟩
    by_contra hnone
    obtain ⟨hleft, hdata⟩ := hdropped.mp (by omega)
    obtain ⟨i', hitem, -, hcovers⟩ := hx
    cases hi'.symm.trans hitem
    have hcovers' := covers_dataRanges_drop hcovers (hlo ▸ hxlo)
    rw [← hrest, ← hlo] at hcovers'
    exact whole_data_ne_nil hleft hcovers' (by omega) hdata

theorem run_split (fromClient : Bool) (h : RunOf cuts (lo, hi) run) (hrun : IsRun cuts lo hi)
    (hread : Readable items lo hi) : ∃ s, pdus run fromClient = .ok s ∧ RunSplit items cuts (lo, hi) s := by
  rcases hread with ⟨m, hlo⟩ | ⟨m, i, k, hi', hlo, hend⟩ | ⟨⟨m, hlo, hhi⟩, hcut⟩
  · exact split_at_item fromClient h hrun hlo
  · exact split_in_item fromClient h hrun hi' hlo hend
  · exact split_cut_short fromClient h hrun hlo hhi (h.data_eq ▸ hcut)

end Run

/-! ### All runs -/

section Flow
variable {fromClient : Bool} {runs : List Chunk} {splits : List Split}

theorem runsPDUs_eq (h : List.Forall₂ (fun run s => pdus run fromClient = .ok s) runs splits) (acc : Split) :
    ∃ r, runsPDUs fromClient runs acc = .ok r ∧ r.out = acc.out ++ splits.flatMap Split.out ∧
      r.dropped = acc.dropped + total Split.dropped splits := by
  induction h generalizing acc with
  | nil => exact ⟨acc, rfl, by simp, rfl⟩
  | @cons run s runs splits hs _ ih =>
    obtain ⟨r, hr, hout, hdropped⟩ :=
      ih ⟨acc.out ++ s.out, acc.cr + s.cr, acc.cc + s.cc, acc.dropped + s.dropped⟩
    refine ⟨r, ?_, ?_, ?_⟩
    · rw [runsPDUs, hs]
      exact hr
    · rw [hout, List.flatMap_cons, List.append_assoc]
    · rw [hdropped, total_cons, Nat.add_assoc]

/-- All runs are split before a flow is. -/
theorem exists_readings {acc r : Split} (h : runsPDUs fromClient runs acc = .ok r) :
    ∃ readings : List Reading, readings.map Reading.bytes = runs.map Chunk.data := by
  induction runs generalizing acc with
  | nil => exact ⟨[], rfl⟩
  | cons run runs ih =>
    obtain ⟨s, hs, h⟩ := Outcome.bind_eq_ok.mp h
    obtain ⟨R, hR⟩ := exists_reading hs
    obtain ⟨readings, hreadings⟩ := ih h
    exact ⟨R :: readings, by rw [List.map_cons, List.map_cons, hR, hreadings]⟩

/-- What is found in runs that have readings. -/
theorem splits_of_readings (fromClient : Bool) {readings : List Reading}
    (h : readings.map Reading.bytes = runs.map Chunk.data) :
    ∃ splits, List.Forall₂ (fun run s => pdus run fromClient = .ok s) runs splits ∧
      (splits.flatMap Split.out).map PDU.data = readings.flatMap Reading.pdus ∧
      total Split.dropped splits = total Reading.cutOff readings := by
  induction readings generalizing runs with
  | nil =>
    obtain rfl := List.map_eq_nil_iff.mp h.symm
    exact ⟨[], .nil, rfl, rfl⟩
  | cons R readings ih =>
    obtain ⟨run, runs, rfl, hrun, hruns⟩ := List.map_eq_cons_iff.mp h.symm
    obtain ⟨s, hs, hout, hdropped⟩ := pdus_reading fromClient hrun.symm
    obtain ⟨splits, hall, houts, htotal⟩ := ih hruns.symm
    refine ⟨s :: splits, .cons hs hall, ?_, ?_⟩
    · rw [List.flatMap_cons, List.map_append, hout, houts, List.flatMap_cons]
    · rw [total_cons, total_cons, hdropped, htotal]

/-- The runs of a flow are split exactly when all of them have readings, which say what is found. -/
theorem runsPDUs_iff (fromClient : Bool) (runs : List Chunk) (Q : List Bytes → Nat → Prop) :
    (∃ r, runsPDUs fromClient runs {} = .ok r ∧ Q (r.out.map PDU.data) r.dropped) ↔
      ∃ readings : List Reading, readings.map Reading.bytes = runs.map Chunk.data ∧
        Q (readings.flatMap Reading.pdus) (total Reading.cutOff readings) := by
  have hfound {readings : List Reading} (h : readings.map Reading.bytes = runs.map Chunk.data) :
      ∃ r, runsPDUs fromClient runs {} = .ok r ∧ r.out.map PDU.data = readings.flatMap Reading.pdus ∧
        r.dropped = total Reading.cutOff readings := by
    obtain ⟨splits, hall, hout, hdropped⟩ := splits_of_readings fromClient h
    obtain ⟨r, hr, hout', hdropped'⟩ := runsPDUs_eq hall {}
    refine ⟨r, hr, ?_, ?_⟩
    · rw [hout', List.nil_append, hout]
    · rw [hdropped', Nat.zero_add, hdropped]
  constructor
  · rintro ⟨r, hr, hQ⟩
    obtain ⟨readings, hreadings⟩ := exists_readings hr
    obtain ⟨r', hr', hout, hdropped⟩ := hfound hreadings
    obtain rfl : r' = r := Outcome.ok.inj (hr'.symm.trans hr)
    exact ⟨readings, hreadings, by rwa [← hout, ← hdropped]⟩
  · rintro ⟨readings, hreadings, hQ⟩
    obtain ⟨r, hr, hout, hdropped⟩ := hfound hreadings
    exact ⟨r, hr, by rwa [hout, hdropped]⟩

/-- An empty run adds nothing. -/
theorem pdus_empty (fromClient : Bool) : pdus {} fromClient = .ok {} := pdusFrom_end (Nat.le_refl 0) {}

theorem isRun_of_separated {B : Bytes} {cuts : List (Cut B)} {rs : List (Nat × Nat)} (hsep : Separated rs)
    (hcovers : ∀ x, Covers rs x ↔ Captured cuts x) {r : Nat × Nat} (hr : r ∈ rs) : IsRun cuts r.1 r.2 := by
  have hlt := hsep.nonempty r hr
  refine ⟨hlt, fun x hle hlt => (hcovers x).mp ⟨r, hr, hle, hlt⟩, fun x hx hcap => ?_, fun hcap => ?_⟩
  · obtain ⟨s, hs, hle, hlt'⟩ := (hcovers x).mpr hcap
    rcases hsep.apart hr hs with rfl | hbefore | hafter <;> omega
  · obtain ⟨s, hs, hle, hlt'⟩ := (hcovers r.2).mpr hcap
    rcases hsep.apart hr hs with rfl | hbefore | hafter <;> omega

end Flow

section Flow
variable {items : List Item} {cuts : List (Cut (items.flatMap Item.wire))} {rs : List (Nat × Nat)} {runs : List Chunk}

/-- The runs of readable ranges, each with what is found in it. -/
theorem exists_splits (fromClient : Bool) (hruns : List.Forall₂ (RunOf cuts) rs runs)
    (hread : ∀ r ∈ rs, IsRun cuts r.1 r.2 ∧ Readable items r.1 r.2) :
    ∃ found : List ((Nat × Nat) × Split), found.map Prod.fst = rs ∧
      List.Forall₂ (fun run s => pdus run fromClient = .ok s) runs (found.map Prod.snd) ∧
      ∀ x ∈ found, RunSplit items cuts x.1 x.2 := by
  induction hruns with
  | nil => exact ⟨[], rfl, .nil, nofun⟩
  | @cons r run rs runs hr _ ih =>
    obtain ⟨⟨hrun, hreadable⟩, hrest⟩ := List.forall_mem_cons.mp hread
    obtain ⟨found, rfl, hall, hsplit⟩ := ih hrest
    obtain ⟨s, hs, hrs⟩ := run_split fromClient hr hrun hreadable
    exact ⟨(r, s) :: found, rfl, .cons hs hall, List.forall_mem_cons.mpr ⟨hrs, hsplit⟩⟩

/-- What a flow with these runs gives: an empty run before them adds nothing. -/
theorem flowPDUs_of_stream (fromClient : Bool) {f : Flow} (hstream : f.stream = runs ∨ f.stream = {} :: runs)
    (r : Split) :
    (∃ gaps, flowPDUs f fromClient = .ok (r, gaps)) ↔ runsPDUs fromClient runs {} = .ok r := by
  have hruns : runsPDUs fromClient f.stream {} = runsPDUs fromClient runs {} := by
    rcases hstream with heq | heq
    · rw [heq]
    · rw [heq, runsPDUs, pdus_empty]
      rfl
  rw [← hruns, flowPDUs]
  constructor
  · rintro ⟨gaps, h⟩
    obtain ⟨s, hs, h⟩ := Outcome.bind_eq_ok.mp h
    cases h
    exact hs
  · intro h
    rw [h]
    exact ⟨_, rfl⟩

/-- Gaps are tolerated exactly when the runs are legible. -/
theorem gapsTolerated_iff_legible (fromClient : Bool) {f : Flow} (hruns : List.Forall₂ (RunOf cuts) rs runs)
    (hstream : f.stream = runs ∨ f.stream = {} :: runs) :
    GapsTolerated items cuts f fromClient ↔ ∃ readings, Legible items cuts rs readings := by
  have hflow := runsPDUs_iff fromClient runs fun out dropped => (∀ b ∈ out, b ∈ items.filterMap Item.s7) ∧
    ∀ js : List Nat, js.Nodup → (∀ j ∈ js, PartlyLost items cuts j) → js.length ≤ dropped
  rw [data_eq_of_forall₂ hruns] at hflow
  constructor
  · rintro ⟨⟨r, gaps⟩, hr, hknown, hcounted⟩
    have hsplit := (flowPDUs_of_stream fromClient hstream r).mp ⟨gaps, hr⟩
    have hknown' : ∀ b ∈ r.out.map PDU.data, b ∈ items.filterMap Item.s7 := by
      intro b hb
      obtain ⟨p, hp, rfl⟩ := List.mem_map.mp hb
      exact hknown p hp
    obtain ⟨readings, hbytes, hall, hcount⟩ := hflow.mp ⟨r, hsplit, hknown', hcounted⟩
    exact ⟨readings, hbytes, fun R hR b hb => hall b (List.mem_flatMap.mpr ⟨R, hR, hb⟩), hcount⟩
  · rintro ⟨readings, hbytes, hknown, hcounted⟩
    have hknown' : ∀ b ∈ readings.flatMap Reading.pdus, b ∈ items.filterMap Item.s7 := by
      intro b hb
      obtain ⟨R, hR, hb⟩ := List.mem_flatMap.mp hb
      exact hknown R hR b hb
    obtain ⟨r, hr, hall, hcount⟩ := hflow.mpr ⟨readings, hbytes, hknown', hcounted⟩
    obtain ⟨gaps, hr'⟩ := (flowPDUs_of_stream fromClient hstream r).mpr hr
    exact ⟨(r, gaps), hr', fun p hp => hall p.data (List.mem_map_of_mem hp), hcount⟩

/-- Readable ranges that cover what was captured make the flow tolerate its gaps. -/
theorem gapsTolerated_of_runs (fromClient : Bool) {f : Flow} (hsep : Separated rs)
    (hcovers : ∀ x, Covers rs x ↔ Captured cuts x) (hruns : List.Forall₂ (RunOf cuts) rs runs)
    (hread : ∀ r ∈ rs, Readable items r.1 r.2) (hstream : f.stream = runs ∨ f.stream = {} :: runs) :
    GapsTolerated items cuts f fromClient := by
  have hrun : ∀ r ∈ rs, IsRun cuts r.1 r.2 := fun r hr => isRun_of_separated hsep hcovers hr
  obtain ⟨found, hranges, hall, hsplit⟩ := exists_splits fromClient hruns fun r hr => ⟨hrun r hr, hread r hr⟩
  obtain ⟨r, hr, hout, hdropped⟩ := runsPDUs_eq hall {}
  obtain ⟨gaps, hflow⟩ := (flowPDUs_of_stream fromClient hstream r).mpr hr
  refine ⟨(r, gaps), hflow, ?_, ?_⟩
  · intro p hp
    rw [hout, List.nil_append, List.mem_flatMap] at hp
    obtain ⟨s, hs, hp⟩ := hp
    obtain ⟨x, hx, rfl⟩ := List.mem_map.mp hs
    exact (hsplit x hx).known p hp
  · intro js hjs hlost
    rw [hdropped, Nat.zero_add]
    have hmap : total Split.dropped (found.map Prod.snd) = total (fun x => x.2.dropped) found := by
      simp [total, Function.comp_def]
    rw [hmap]
    -- Each PDU that was cut stands at a run with one of its bytes, which counts it and ends in it.
    refine length_le_total (fun x j => ∃ b, PDUByte items j b ∧ x.1.1 ≤ b ∧ b < x.1.2) hjs ?_ ?_ ?_
    · intro j hj
      obtain ⟨b, hb, hcap⟩ := (hlost j hj).kept
      obtain ⟨range, hrange, hin⟩ := (hcovers b).mpr hcap
      rw [← hranges] at hrange
      obtain ⟨x, hx, rfl⟩ := List.mem_map.mp hrange
      exact ⟨x, hx, b, hb, hin⟩
    · intro x hx j hj j' hj' hat hat'
      obtain ⟨-, hend⟩ := (hsplit x hx).counted j (hlost j hj) hat
      obtain ⟨-, hend'⟩ := (hsplit x hx).counted j' (hlost j' hj') hat'
      exact startAt_inj hend hend'
    · intro x hx j hj hat
      exact ((hsplit x hx).counted j (hlost j hj) hat).1

end Flow

theorem Comparable.stream_runs {B : Bytes} {syn : Bool} {cuts : List (Cut B)} (h : Comparable syn cuts) (isn : UInt32) :
    ∃ rs runs, Separated rs ∧ (∀ x, Covers rs x ↔ Kept syn cuts x) ∧ List.Forall₂ (RunOf cuts) rs runs ∧
      ((recorded syn isn cuts).stream = runs ∨ (recorded syn isn cuts).stream = {} :: runs) := by
  cases cuts with
  | nil =>
    refine ⟨[], [], trivial, fun x => ?_, .nil, .inl (by cases syn <;> rfl)⟩
    exact iff_of_false covers_nil fun hx => covers_nil hx.1
  | cons c cuts =>
    obtain ⟨rs, runs, hsep, hcovers, hruns, heq⟩ := Capture.stream_runs syn isn c cuts (h c rfl)
    refine ⟨rs, runs, hsep, fun x => ?_, hruns, ?_⟩
    · rw [hcovers, and_comm]
      simp [Kept]
    · rw [heq]
      split_ifs
      · exact .inl rfl
      · exact .inr rfl

/-- An S7 PDU of six bytes in three data TPDUs. -/
def threeItem : Item :=
  .tsdu ⟨[fragment 0x00 [0x32, 0x01] (Nat.le_of_ble_eq_true rfl),
    fragment 0x00 [0x00, 0x00] (Nat.le_of_ble_eq_true rfl)],
    fragment 0x80 [0x00, 0x00] (Nat.le_of_ble_eq_true rfl), by decide, rfl⟩

/-- A recording that keeps the connect request, the second of three packets of a PDU, and the first half of another. -/
def gapCuts : List (Cut ([connectItem, threeItem, s7Item].flatMap Item.wire)) :=
  [⟨1, 0, 11, by decide, by decide⟩, ⟨2, 20, 9, by decide, by decide⟩, ⟨3, 38, 9, by decide, by decide⟩]

/-- An S7 PDU in one data TPDU. -/
def jobItem : Item :=
  .tsdu ⟨[], fragment 0x80 [0x32, 0x01, 0x00, 0x00, 0x00, 0x00, 0x00, 0x00] (by decide), List.forall_mem_nil _,
    by decide⟩

/-- Only the second of its two segments was recorded, which starts with the PDU itself. -/
def tailCuts : List (Cut ([jobItem].flatMap Item.wire)) := [⟨2, 7, 8, by decide, by decide⟩]

end S7Comm.Capture
