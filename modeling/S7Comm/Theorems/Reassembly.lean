import S7Comm.Capture.Stream
import S7Comm.Lib.Ranges
import S7Comm.Lib.Runs
import S7Comm.Lib.Series

/-! Reassembly. The segments of a flow are cut from one byte stream, anywhere and any number of times; the runs that
    `stream` makes of them are the ranges of a sweep over the cuts. -/

namespace S7Comm.Capture
open Go

/-! ### Cuts -/

/-- A part of the stream `B` that one frame delivers. -/
structure Cut (B : Bytes) where
  frame : Nat
  off : Nat
  len : Nat
  pos : 0 < len
  le : off + len ≤ B.length

section Cuts
variable {B : Bytes}

def Cut.range (c : Cut B) : Nat × Nat := (c.off, c.off + c.len)

/-- The segment with these bytes; `first` is the sequence number of the first byte of the stream. -/
def Cut.segment (first : UInt32) (c : Cut B) : Segment where
  frame := c.frame
  seq := first + UInt32.ofNat c.off
  payload := (B.drop c.off).take c.len
  nonempty := by
    rw [← List.length_pos_iff, List.length_take, List.length_drop]
    have := c.pos
    have := c.le
    omega

/-- Some cut has the byte at offset `x`. -/
def Captured (cuts : List (Cut B)) (x : Nat) : Prop := Covers (cuts.map Cut.range) x

instance (cuts : List (Cut B)) (x : Nat) : Decidable (Captured cuts x) :=
  inferInstanceAs (Decidable (Covers (cuts.map Cut.range) x))

theorem captured_iff {cuts : List (Cut B)} {x : Nat} :
    Captured cuts x ↔ ∃ c ∈ cuts, c.off ≤ x ∧ x < c.off + c.len := by
  simp [Captured, Covers, Cut.range]

@[simp] theorem Cut.length_payload (first : UInt32) (c : Cut B) : (c.segment first).payload.length = c.len := by
  have := c.le
  simp only [Cut.segment, List.length_take, List.length_drop]
  omega

theorem Cut.standsAt (first : UInt32) (c : Cut B) : StandsAt B c.off (c.segment first).payload :=
  standsAt_take_drop c.le

/-! ### Sequence numbers -/

/-- The cut starts so near to offset `o` that sequence numbers tell which is first. -/
def Cut.Near (o : Nat) (c : Cut B) : Prop := (o : Int) - 2 ^ 31 ≤ c.off ∧ (c.off : Int) < o + 2 ^ 31

theorem seqDiff_add (first : UInt32) {a b : Nat} (h₁ : (b : Int) - 2 ^ 31 ≤ a) (h₂ : (a : Int) < b + 2 ^ 31) :
    seqDiff (first + UInt32.ofNat a) (first + UInt32.ofNat b) = (a : Int) - b := by
  have hd : (first + UInt32.ofNat a - (first + UInt32.ofNat b)).toNat =
      (2 ^ 32 - b % 2 ^ 32 + a % 2 ^ 32) % 2 ^ 32 := by
    have := first.toNat_lt
    simp only [UInt32.toNat_sub, UInt32.toNat_add, UInt32.toNat_ofNat']
    omega
  unfold seqDiff
  rw [hd]
  dsimp only
  split <;> omega

theorem Cut.seqDiff_segment (first : UInt32) {o : Nat} {c : Cut B} (h : c.Near o) :
    seqDiff (c.segment first).seq (first + UInt32.ofNat o) = (c.off : Int) - o :=
  seqDiff_add first h.1 h.2

/-! ### The loop -/

/-- The chunk holds the bytes of the range, each from a cut that has it. -/
structure RunOf (cuts : List (Cut B)) (r : Nat × Nat) (run : Chunk) : Prop where
  bytes : StandsAt B r.1 run.data
  stop : r.2 = r.1 + run.data.length
  frames : ∀ (i : Nat) n, run.frames[i]? = some n → ∃ c ∈ cuts, c.frame = n ∧ c.off ≤ r.1 + i ∧ r.1 + i < c.off + c.len

variable {cuts : List (Cut B)} {lo hi : Nat} {run : Chunk}

theorem RunOf.empty (cuts : List (Cut B)) (h : lo ≤ B.length) : RunOf cuts (lo, lo) {} :=
  ⟨standsAt_nil h, rfl, by simp⟩

theorem RunOf.eq_empty (h : RunOf cuts (lo, lo) run) : run = {} := by
  have hstop : lo = lo + run.data.length := h.stop
  obtain ⟨data, frames, hsized⟩ := run
  obtain rfl : data = [] := List.eq_nil_of_length_eq_zero (by dsimp only at hstop; omega)
  obtain rfl : frames = [] := List.eq_nil_of_length_eq_zero hsized
  rfl

/-- A run grows by the bytes of a cut that reaches past its end. -/
theorem RunOf.append (h : RunOf cuts (lo, hi) run) {c : Cut B} (hc : c ∈ cuts) (hle : c.off ≤ hi)
    (hgt : hi < c.off + c.len) (first : UInt32) :
    RunOf cuts (lo, c.off + c.len) (run.append ((c.segment first).payload.drop (hi - c.off)) c.frame) := by
  obtain ⟨hbytes, hstop, hframes⟩ := h
  dsimp only at hstop hbytes hframes
  have hlen : ((c.segment first).payload.drop (hi - c.off)).length = c.off + c.len - hi := by
    rw [List.length_drop, Cut.length_payload]
    omega
  have hrest : StandsAt B hi ((c.segment first).payload.drop (hi - c.off)) := by
    have hle' : hi - c.off ≤ (c.segment first).payload.length := by
      rw [Cut.length_payload]
      omega
    have := (c.standsAt first).trans (standsAt_drop hle')
    rwa [show c.off + (hi - c.off) = hi by omega] at this
  refine ⟨standsAt_append.mpr ⟨hbytes, hstop ▸ hrest⟩, ?_, ?_⟩
  · dsimp only [Chunk.append]
    rw [List.length_append, hlen]
    omega
  · intro i n hn
    dsimp only [Chunk.append] at hn ⊢
    by_cases hi' : i < run.frames.length
    · rw [List.getElem?_append_left hi'] at hn
      exact hframes i n hn
    · rw [List.getElem?_append_right (by omega), List.getElem?_replicate, hlen] at hn
      have := run.sized
      split at hn
      · cases hn
        exact ⟨c, hc, rfl, by omega, by omega⟩
      · cases hn

/-- One round of the loop is one step of the sweep: the cut lies in what was delivered, leaves a gap, or makes the
    current run grow. -/
theorem deliver_cases {o : Nat} {c : Cut B} (hc : c ∈ cuts) (hnear : c.Near o) {a : Assembly} (first : UInt32)
    (hcur : RunOf cuts (lo, hi) a.cur) (hnext : a.next = (hi : Int) - o) :
    (c.off + c.len ≤ hi ∧ a.deliver (first + UInt32.ofNat o) (c.segment first) = a) ∨
    ∃ a', a.deliver (first + UInt32.ofNat o) (c.segment first) = a' ∧ a'.next = ((c.off + c.len : Nat) : Int) - o ∧
      (hi < c.off ∧ a'.done = a.chunks ∧ RunOf cuts (c.off, c.off + c.len) a'.cur ∨
        c.off ≤ hi ∧ hi < c.off + c.len ∧ a'.done = a.done ∧ RunOf cuts (lo, c.off + c.len) a'.cur) := by
  have hdeliver : a.deliver (first + UInt32.ofNat o) (c.segment first) =
      if c.off + c.len ≤ hi then a
      else if hi < c.off then
        { done := a.chunks
          cur := Chunk.append {} (c.segment first).payload c.frame
          next := (c.off + c.len : Nat) - o }
      else
        { a with
          cur := a.cur.append ((c.segment first).payload.drop (hi - c.off)) c.frame
          next := (c.off + c.len : Nat) - o } := by
    unfold Assembly.deliver
    rw [c.seqDiff_segment first hnear, Cut.length_payload, hnext]
    have hend : (c.off : Int) - o + c.len = (c.off + c.len : Nat) - o := by omega
    have hstop : (((c.off + c.len : Nat) : Int) - o ≤ hi - o) = (c.off + c.len ≤ hi) := propext (by omega)
    have hgap : ((c.off : Int) - o > hi - o) = (hi < c.off) := propext (by omega)
    have hcut : ((hi : Int) - o - (c.off - o)).toNat = hi - c.off := by omega
    simp only [hend, hstop, hgap, hcut]
    rfl
  rw [hdeliver]
  have hpos := c.pos
  split_ifs with hold hgap
  · exact .inl ⟨hold, rfl⟩
  · refine .inr ⟨_, rfl, rfl, .inl ⟨hgap, rfl, ?_⟩⟩
    have hle : c.off ≤ B.length := Nat.le_of_add_right_le c.le
    have := (RunOf.empty cuts hle).append hc (Nat.le_refl _) (by omega) first
    rwa [Nat.sub_self, List.drop_zero] at this
  · exact .inr ⟨_, rfl, rfl, .inr ⟨Nat.not_lt.mp hgap, Nat.not_le.mp hold, rfl,
      hcur.append hc (Nat.not_lt.mp hgap) (Nat.not_le.mp hold) first⟩⟩

/-- The loop makes the runs of a sweep. By induction on the segments that are left. -/
theorem foldl_deliver {o : Nat} {cs : List (Cut B)} (hcs : ∀ c ∈ cs, c ∈ cuts ∧ c.Near o) (a : Assembly)
    (first : UInt32) (hcur : RunOf cuts (lo, hi) a.cur) (hnext : a.next = (hi : Int) - o) :
    ∃ runs, ((cs.map (Cut.segment first)).foldl (Assembly.deliver (first + UInt32.ofNat o)) a).chunks = a.done ++ runs ∧
      List.Forall₂ (RunOf cuts) (sweep lo hi (cs.map Cut.range)) runs := by
  induction cs generalizing a lo hi with
  | nil => exact ⟨[a.cur], rfl, .cons hcur .nil⟩
  | cons c cs ih =>
    obtain ⟨⟨hc, hnear⟩, hcs⟩ := List.forall_mem_cons.mp hcs
    rw [List.map_cons, List.foldl_cons, List.map_cons, Cut.range, sweep]
    rcases deliver_cases hc hnear first hcur hnext with
      ⟨hold, heq⟩ | ⟨a', heq, hnext', ⟨hgap, hdone, hrun⟩ | ⟨hle, hgt, hdone, hrun⟩⟩
    · rw [heq, if_pos hold]
      exact ih hcs a hcur hnext
    · obtain ⟨runs, hchunks, hall⟩ := ih hcs a' hrun hnext'
      rw [heq, if_neg (by omega), if_pos hgap, hchunks, hdone, Assembly.chunks]
      exact ⟨a.cur :: runs, by simp, .cons hcur hall⟩
    · obtain ⟨runs, hchunks, hall⟩ := ih hcs a' hrun hnext'
      rw [heq, if_neg (by omega), if_neg (by omega), hchunks, hdone]
      exact ⟨runs, rfl, hall⟩

/-- The segments are sorted by where they were cut. -/
theorem sortedBy_segments (first : UInt32) {o : Nat} (h : ∀ c ∈ cuts, c.Near o) :
    sortedBy (first + UInt32.ofNat o) (cuts.map (Cut.segment first)) =
      (cuts.insertionSort fun c d => c.off ≤ d.off).map (Cut.segment first) := by
  refine (List.map_insertionSort _ _ (Cut.segment first) cuts fun c hc d hd => ?_).symm
  rw [c.seqDiff_segment first (h c hc), d.seqDiff_segment first (h d hd)]
  omega

/-- The loop over the segments of a flow, from the byte at offset `o` on: runs of separated ranges that cover what was
    captured from there on, after an empty run if the byte at `o` was not captured. -/
theorem assembled_runs (first : UInt32) {o : Nat} (ho : o ≤ B.length) (h : ∀ c ∈ cuts, c.Near o) :
    ∃ rs runs, Separated rs ∧ (∀ x, Covers rs x ↔ o ≤ x ∧ Captured cuts x) ∧ List.Forall₂ (RunOf cuts) rs runs ∧
      ((sortedBy (first + UInt32.ofNat o) (cuts.map (Cut.segment first))).foldl
        (Assembly.deliver (first + UInt32.ofNat o)) {}).chunks =
          (if Captured cuts o then [] else [({} : Chunk)]) ++ runs := by
  have hmem : ∀ c, c ∈ cuts.insertionSort (fun c d => c.off ≤ d.off) ↔ c ∈ cuts := fun c => List.mem_insertionSort _
  have hcaptured : ∀ x, Covers ((cuts.insertionSort fun c d => c.off ≤ d.off).map Cut.range) x ↔ Captured cuts x := by
    intro x
    simp [Captured, Covers, hmem]
  have hcs : ∀ c ∈ cuts.insertionSort (fun c d => c.off ≤ d.off), c ∈ cuts ∧ c.Near o := fun c hc =>
    ⟨(hmem c).mp hc, h c ((hmem c).mp hc)⟩
  obtain ⟨runs, hchunks, hruns⟩ := foldl_deliver hcs {} first (RunOf.empty cuts ho) (by simp)
  have hne : ∀ r ∈ (cuts.insertionSort fun c d => c.off ≤ d.off).map Cut.range, r.1 < r.2 := by
    intro r hr
    obtain ⟨c, -, rfl⟩ := List.mem_map.mp hr
    exact Nat.lt_add_of_pos_right c.pos
  have hsorted : ((cuts.insertionSort fun c d => c.off ≤ d.off).map Cut.range).Pairwise fun r s => r.1 ≤ s.1 := by
    have : Std.Total fun c d : Cut B => c.off ≤ d.off := ⟨fun c d => Nat.le_total c.off d.off⟩
    have : IsTrans (Cut B) fun c d => c.off ≤ d.off := ⟨fun _ _ _ => Nat.le_trans⟩
    rw [List.pairwise_map]
    exact List.pairwise_insertionSort _ cuts
  obtain ⟨rs, hsep, hcovers, hsweep⟩ := exists_sweep o hne hsorted
  simp only [hcaptured] at hcovers hsweep
  rw [sortedBy_segments first h, hchunks]
  rcases hsweep with ⟨hin, heq⟩ | ⟨hout, heq⟩
  · exact ⟨rs, runs, hsep, hcovers, heq ▸ hruns, by rw [if_pos hin]⟩
  · rw [heq] at hruns
    obtain ⟨run, rest, hempty, hrest, rfl⟩ := List.forall₂_cons_left_iff.mp hruns
    rw [hempty.eq_empty, if_neg hout]
    exact ⟨rs, rest, hsep, hcovers, hrest, rfl⟩

/-! ### Recorded flows -/

/-- The flow as it was recorded. Its initial sequence number is known only if its SYN was captured. -/
def recorded (syn : Bool) (isn : UInt32) (cuts : List (Cut B)) : Flow where
  syn := syn
  isn := if syn then isn else 0
  segs := cuts.map (Cut.segment (isn + 1))

/-- The offset of the byte that the code takes as the start of the flow. -/
def startOff (syn : Bool) (c : Cut B) : Nat := if syn then 0 else c.off

@[simp] theorem startOff_true (c : Cut B) : startOff true c = 0 := rfl

@[simp] theorem startOff_false (c : Cut B) : startOff false c = c.off := rfl

theorem startOff_le (syn : Bool) (c : Cut B) : startOff syn c ≤ B.length := by
  have := c.le
  unfold startOff
  split <;> omega

theorem stream_recorded (syn : Bool) (isn : UInt32) (c : Cut B) (cuts : List (Cut B)) :
    (recorded syn isn (c :: cuts)).stream =
      ((sortedBy (isn + 1 + UInt32.ofNat (startOff syn c)) ((c :: cuts).map (Cut.segment (isn + 1)))).foldl
        (Assembly.deliver (isn + 1 + UInt32.ofNat (startOff syn c))) {}).chunks := by
  have hbase : (if syn then isn + 1 else isn + 1 + UInt32.ofNat c.off) = isn + 1 + UInt32.ofNat (startOff syn c) := by
    cases syn
    · rfl
    · exact (UInt32.add_zero _).symm
  rw [← hbase]
  cases syn <;> rfl

/-- The runs of a recorded flow. -/
theorem stream_runs (syn : Bool) (isn : UInt32) (c : Cut B) (cuts : List (Cut B))
    (h : ∀ d ∈ c :: cuts, d.Near (startOff syn c)) :
    ∃ rs runs, Separated rs ∧ (∀ x, Covers rs x ↔ startOff syn c ≤ x ∧ Captured (c :: cuts) x) ∧
      List.Forall₂ (RunOf (c :: cuts)) rs runs ∧
      (recorded syn isn (c :: cuts)).stream =
        (if Captured (c :: cuts) (startOff syn c) then [] else [({} : Chunk)]) ++ runs := by
  rw [stream_recorded]
  exact assembled_runs (isn + 1) (startOff_le syn c) h

theorem near_of_short (hB : B.length < 2 ^ 30) {o : Nat} (ho : o ≤ B.length) (c : Cut B) : c.Near o := by
  have := c.le
  constructor <;> omega

theorem RunOf.data_eq {r : Nat × Nat} (h : RunOf cuts r run) : run.data = (B.drop r.1).take (r.2 - r.1) := by
  rw [h.stop, Nat.add_sub_cancel_left]
  exact h.bytes.drop.symm

theorem data_eq_of_forall₂ {rs : List (Nat × Nat)} {runs : List Chunk} (h : List.Forall₂ (RunOf cuts) rs runs) :
    runs.map Chunk.data = rs.map fun r => (B.drop r.1).take (r.2 - r.1) := by
  induction h with
  | nil => rfl
  | cons hr _ ih => rw [List.map_cons, List.map_cons, ih, hr.data_eq]

/-- With a SYN: the separated ranges that cover what was captured, and the runs with their bytes. -/
theorem stream_syn (hB : B.length < 2 ^ 30) (isn : UInt32) (cuts : List (Cut B)) :
    ∃ rs runs, Separated rs ∧ (∀ x, Covers rs x ↔ Captured cuts x) ∧ List.Forall₂ (RunOf cuts) rs runs ∧
      (recorded true isn cuts).stream = (if cuts = [] ∨ Captured cuts 0 then [] else [({} : Chunk)]) ++ runs := by
  cases cuts with
  | nil => exact ⟨[], [], trivial, fun x => by simp [Captured], .nil, rfl⟩
  | cons c cuts =>
    obtain ⟨rs, runs, hsep, hcovers, hruns, heq⟩ := stream_runs true isn c cuts fun d _ =>
      near_of_short hB (startOff_le true c) d
    refine ⟨rs, runs, hsep, fun x => ?_, hruns, ?_⟩
    · rw [hcovers, startOff_true, and_iff_right (Nat.zero_le x)]
    · rw [heq, startOff_true]
      by_cases hcap : Captured (c :: cuts) 0 <;> simp [hcap]

theorem captured_perm {cuts cuts' : List (Cut B)} (h : cuts.Perm cuts') (x : Nat) :
    Captured cuts x ↔ Captured cuts' x := by
  simp only [captured_iff, h.mem_iff]

end Cuts

/-- Reassembly with a SYN. Whatever was cut from a stream of less than 2^30 bytes, in whatever order it arrived and
    wherever the sequence numbers wrap: the runs are the bytes of the separated ranges that cover exactly what was
    captured, after one empty run if the first byte is missing; every byte has the frame of a cut that holds it; and the
    order of arrival does not matter. -/
theorem stream_maximal_runs {B : Bytes} (hB : B.length < 2 ^ 30) (isn : UInt32) (cuts : List (Cut B)) :
    (∃ rs runs, Separated rs ∧ (∀ x, Covers rs x ↔ Captured cuts x) ∧ List.Forall₂ (RunOf cuts) rs runs ∧
      (recorded true isn cuts).stream = (if cuts = [] ∨ Captured cuts 0 then [] else [({} : Chunk)]) ++ runs) ∧
    ∀ cuts' : List (Cut B), cuts.Perm cuts' →
      (recorded true isn cuts').stream.map Chunk.data = (recorded true isn cuts).stream.map Chunk.data := by
  refine ⟨stream_syn hB isn cuts, fun cuts' hperm => ?_⟩
  obtain ⟨rs, runs, hsep, hcovers, hruns, heq⟩ := stream_syn hB isn cuts
  obtain ⟨rs', runs', hsep', hcovers', hruns', heq'⟩ := stream_syn hB isn cuts'
  have hsame : rs = rs' := hsep.ext hsep' fun x => (hcovers x).trans ((captured_perm hperm x).trans (hcovers' x).symm)
  have hnil : cuts = [] ↔ cuts' = [] := ⟨fun h => (h ▸ hperm).nil_eq.symm, fun h => (h ▸ hperm).eq_nil⟩
  rw [heq, heq', List.map_append, List.map_append, data_eq_of_forall₂ hruns, data_eq_of_forall₂ hruns', hsame]
  simp only [hnil, captured_perm hperm]

/-- Five bytes whose sequence numbers wrap, the second part recorded first. -/
def wrapCuts : List (Cut [1, 2, 3, 4, 5]) := [⟨1, 2, 2, by decide, by decide⟩, ⟨2, 0, 3, by decide, by decide⟩]

theorem stream_maximal_runs_wrap :
    (recorded true 0xFFFFFFFD wrapCuts).stream.map Chunk.data = [[1, 2, 3, 4]] ∧
    ∃ rs runs, Separated rs ∧ (∀ x, Covers rs x ↔ Captured wrapCuts x) ∧ List.Forall₂ (RunOf wrapCuts) rs runs ∧
      (recorded true 0xFFFFFFFD wrapCuts).stream =
        (if wrapCuts = [] ∨ Captured wrapCuts 0 then [] else [({} : Chunk)]) ++ runs :=
  ⟨by decide, (stream_maximal_runs (by decide) 0xFFFFFFFD wrapCuts).1⟩

/-! ### Without a SYN -/

/-- The offsets of a run that is placed in the stream. -/
def placedRange (p : Nat × Chunk) : Nat × Nat := (p.1, p.1 + p.2.data.length)

/-- Every captured byte is in exactly one run: the runs can be placed in the stream where their bytes stand so that each
    captured offset lies in one of them only. -/
def DeliveredOnce {B : Bytes} (cuts : List (Cut B)) (runs : List Chunk) : Prop :=
  ∃ placed : List (Nat × Chunk), placed.map Prod.snd = runs ∧ (∀ p ∈ placed, StandsAt B p.1 p.2.data) ∧
    ∀ x, Captured cuts x → ∃! i : Nat, ∃ r, (placed.map placedRange)[i]? = some r ∧ r.1 ≤ x ∧ x < r.2

section Unsynchronised
variable {B : Bytes} {c : Cut B} {cuts : List (Cut B)}

/-- The runs of a flow without SYN hold what was captured from the first segment on. -/
theorem stream_unsynchronised (hB : B.length < 2 ^ 30) (isn : UInt32) (c : Cut B) (cuts : List (Cut B)) :
    ∃ rs, Separated rs ∧ (∀ x, Covers rs x ↔ c.off ≤ x ∧ Captured (c :: cuts) x) ∧
      List.Forall₂ (RunOf (c :: cuts)) rs (recorded false isn (c :: cuts)).stream := by
  obtain ⟨rs, runs, hsep, hcovers, hruns, heq⟩ := stream_runs false isn c cuts fun d _ =>
    near_of_short hB (startOff_le false c) d
  have hfirst : Captured (c :: cuts) c.off :=
    captured_iff.mpr ⟨c, List.mem_cons_self .., Nat.le_refl _, Nat.lt_add_of_pos_right c.pos⟩
  rw [startOff_false, if_pos hfirst, List.nil_append] at heq
  exact ⟨rs, hsep, hcovers, heq ▸ hruns⟩

/-- Runs in which all captured bytes have a place are long enough for them. -/
theorem DeliveredOnce.length_le {runs : List Chunk} (h : DeliveredOnce cuts runs) {xs : List Nat} (hxs : xs.Nodup)
    (hcap : ∀ x ∈ xs, Captured cuts x) : xs.length ≤ (runs.map fun run => run.data.length).sum := by
  obtain ⟨placed, rfl, -, honce⟩ := h
  have hlen : (places (placed.map placedRange)).length =
      ((placed.map Prod.snd).map fun run => run.data.length).sum := by
    simp [length_places, placedRange, Function.comp_def]
  rw [← hlen]
  refine (List.subperm_of_subset hxs fun x hx => ?_).length_le
  obtain ⟨i, ⟨r, hr, hin⟩, -⟩ := honce x (hcap x hx)
  exact mem_places.mpr ⟨r, List.mem_of_getElem? hr, hin⟩

/-- The sum of the lengths of the runs is the number of places in their ranges. -/
theorem length_places_of_forall₂ {rs : List (Nat × Nat)} {runs : List Chunk} (h : List.Forall₂ (RunOf cuts) rs runs) :
    (places rs).length = (runs.map fun run => run.data.length).sum := by
  rw [length_places]
  induction h with
  | nil => rfl
  | cons hr _ ih =>
    rw [List.map_cons, List.map_cons, List.sum_cons, List.sum_cons, ih, hr.stop, Nat.add_sub_cancel_left]

/-- The runs of separated ranges have every covered byte in exactly one of them. -/
theorem deliveredOnce_of_separated {rs : List (Nat × Nat)} {runs : List Chunk} (hsep : Separated rs)
    (hruns : List.Forall₂ (RunOf cuts) rs runs) (hcap : ∀ x, Captured cuts x → Covers rs x) :
    DeliveredOnce cuts runs := by
  have hplaced : ∃ placed : List (Nat × Chunk), placed.map Prod.snd = runs ∧ placed.map placedRange = rs ∧
      ∀ p ∈ placed, StandsAt B p.1 p.2.data := by
    clear hsep hcap
    induction hruns with
    | nil => exact ⟨[], rfl, rfl, nofun⟩
    | @cons r run rs runs h _ ih =>
      obtain ⟨placed, rfl, rfl, hat⟩ := ih
      refine ⟨(r.1, run) :: placed, rfl, ?_, List.forall_mem_cons.mpr ⟨h.bytes, hat⟩⟩
      rw [List.map_cons, placedRange, ← h.stop]
  obtain ⟨placed, hsnd, hranges, hat⟩ := hplaced
  refine ⟨placed, hsnd, hat, fun x hx => ?_⟩
  rw [hranges]
  exact hsep.existsUnique (hcap x hx)

/-- A segment that starts before the first one loses its first byte. -/
theorem DeliveredOnce.first_le (hB : B.length < 2 ^ 30) {isn : UInt32}
    (h : DeliveredOnce (c :: cuts) (recorded false isn (c :: cuts)).stream) {d : Cut B} (hd : d ∈ c :: cuts) :
    c.off ≤ d.off := by
  obtain ⟨rs, hsep, hcovers, hruns⟩ := stream_unsynchronised hB isn c cuts
  by_contra hlt
  -- The places of the runs are captured, and so is the start of `d`, which is not among them: one too many.
  have hstart : Captured (c :: cuts) d.off :=
    captured_iff.mpr ⟨d, hd, Nat.le_refl _, Nat.lt_add_of_pos_right d.pos⟩
  have hnodup : (d.off :: places rs).Nodup := by
    refine List.nodup_cons.mpr ⟨fun hin => ?_, hsep.nodup_places⟩
    exact hlt ((hcovers _).mp (mem_places.mp hin)).1
  have hcap : ∀ x ∈ d.off :: places rs, Captured (c :: cuts) x :=
    List.forall_mem_cons.mpr ⟨hstart, fun x hx => ((hcovers x).mp (mem_places.mp hx)).2⟩
  have hle := h.length_le hnodup hcap
  rw [List.length_cons, length_places_of_forall₂ hruns] at hle
  omega

end Unsynchronised

/-- Reassembly without a SYN. The first segment to arrive is taken as the start of the flow, and bytes before it are
    dropped as if they had been delivered: every captured byte is in exactly one run if and only if no segment starts
    before the first one. -/
theorem stream_delivers_once_iff {B : Bytes} (hB : B.length < 2 ^ 30) (isn : UInt32) (cuts : List (Cut B)) :
    DeliveredOnce cuts (recorded false isn cuts).stream ↔ ∀ c ∈ cuts.head?, ∀ d ∈ cuts, c.off ≤ d.off := by
  cases cuts with
  | nil =>
    refine iff_of_true ⟨[], rfl, nofun, fun x hx => ?_⟩ nofun
    exact absurd hx covers_nil
  | cons c cuts =>
    constructor
    · rintro h _ ⟨⟩ d hd
      exact h.first_le hB hd
    · intro h
      obtain ⟨rs, hsep, hcovers, hruns⟩ := stream_unsynchronised hB isn c cuts
      refine deliveredOnce_of_separated hsep hruns fun x hx => (hcovers x).mpr ⟨?_, hx⟩
      obtain ⟨d, hd, hle, -⟩ := captured_iff.mp hx
      exact Nat.le_trans (h c rfl d hd) hle

theorem stream_delivers_once_in_order :
    DeliveredOnce wrapCuts.reverse (recorded false 0xFFFFFFFD wrapCuts.reverse).stream := by
  refine (stream_delivers_once_iff (by decide) _ _).mpr ?_
  rintro _ ⟨⟩
  decide

/-- The first two bytes were captured after the two that follow them, and are in no run. -/
theorem stream_loses_earlier_bytes :
    Captured wrapCuts 0 ∧ (recorded false 0xFFFFFFFD wrapCuts).stream.map Chunk.data = [[3, 4]] ∧
      ¬DeliveredOnce wrapCuts (recorded false 0xFFFFFFFD wrapCuts).stream := by
  refine ⟨by decide, by decide, fun h => ?_⟩
  have := h.first_le (by decide) (d := ⟨2, 0, 3, by decide, by decide⟩) (by simp)
  exact absurd this (by decide)

end S7Comm.Capture
