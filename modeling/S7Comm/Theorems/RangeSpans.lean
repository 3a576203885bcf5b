import S7Comm.Client.RangeScan
import S7Comm.Lib.Runs

/-! Spans of a range scan. The observations are cut into their longest runs, a run becomes a span, and the spans are
    sorted by what their status says. -/

namespace S7Comm
open Go

/-! ### Runs -/

/-- The observation `b` continues a run after `a`. -/
def continues (step : Int64) (a b : ReadProbeObservation) : Bool :=
  b.result.status == a.result.status && b.offset == a.offset + step

/-- The longest runs of the observations. -/
def runsOf (step : Int64) (observations : List ReadProbeObservation) : List (List ReadProbeObservation) :=
  observations.splitBy (continues step)

theorem continues_iff {step : Int64} {a b : ReadProbeObservation} :
    continues step a b = true ↔ b.result.status = a.result.status ∧ b.offset = a.offset + step := by
  simp [continues]

/-- The span of a run. -/
def SpanOfRun (probeSize : Int64) (run : List ReadProbeObservation) (span : ReadableSpan) : Prop :=
  ∃ first last, run.head? = some first ∧ run.getLast? = some last ∧
    span = spanOf first.offset (last.offset + probeSize) first.result.status run

section Runs
variable {step probeSize : Int64}

/-- The inner loop takes the rest of a longest run, and ends the span after its last observation. By induction over the
    observations, with the one before them as `a`. -/
theorem extendRun_spec (a : ReadProbeObservation) (rest : List ReadProbeObservation) :
    ∃ run rest' last, extendRun step probeSize a.result.status a.offset (a.offset + probeSize) rest =
        (run, last.offset + probeSize, rest') ∧
      rest = run ++ rest' ∧ (a :: run).getLast? = some last ∧
      (a :: run).IsChain (fun x y => continues step x y = true) ∧ ∀ b ∈ rest'.head?, continues step last b = false := by
  induction rest generalizing a with
  | nil =>
    refine ⟨[], [], a, rfl, rfl, rfl, .singleton a, ?_⟩
    rintro _ ⟨⟩
  | cons b rest ih =>
    unfold extendRun
    split
    · rename_i hcont
      obtain ⟨run, rest', last, hrun, rfl, hlast, hchain, hnext⟩ := ih b
      rw [hcont.1] at hrun
      rw [hrun]
      refine ⟨b :: run, rest', last, rfl, rfl, ?_, ?_, hnext⟩
      · rwa [List.getLast?_cons_cons]
      · exact List.isChain_cons_cons.mpr ⟨continues_iff.mpr hcont, hchain⟩
    · rename_i hcont
      refine ⟨[], b :: rest, a, rfl, rfl, rfl, .singleton a, ?_⟩
      rintro _ ⟨⟩
      rw [← Bool.not_eq_true, continues_iff]
      exact hcont

theorem spansOf_nil : List.Forall₂ (SpanOfRun probeSize) (runsOf step []) (spansOf step probeSize []) := by
  rw [spansOf, runsOf, List.splitBy_nil]
  exact .nil

variable (step probeSize) in
/-- The spans are those of the longest runs, in order. -/
theorem spansOf_runs (observations : List ReadProbeObservation) :
    List.Forall₂ (SpanOfRun probeSize) (runsOf step observations) (spansOf step probeSize observations) := by
  obtain ⟨n, hn⟩ : ∃ n, observations.length ≤ n := ⟨_, Nat.le_refl _⟩
  induction n generalizing observations with
  | zero =>
    obtain rfl := List.eq_nil_of_length_eq_zero (Nat.le_zero.mp hn)
    exact spansOf_nil
  | succ n ih =>
    cases observations with
    | nil => exact spansOf_nil
    | cons a rest =>
      obtain ⟨run, rest', last, hrun, rfl, hlast, hchain, hnext⟩ := extendRun_spec a rest
      have hsplit : runsOf step (a :: run ++ rest') = (a :: run) :: runsOf step rest' :=
        splitBy_run (List.cons_ne_nil a run) hchain fun x hx => by
          cases hx.symm.trans hlast
          exact hnext
      rw [spansOf, hrun, ← List.cons_append, hsplit]
      refine .cons ⟨a, last, rfl, hlast, rfl⟩ (ih rest' ?_)
      rw [List.length_cons, List.length_append] at hn
      omega

/-- The longest runs are a partition of the observations, and no two neighbours of them are one run. -/
theorem runsOf_spec (step : Int64) (observations : List ReadProbeObservation) :
    (runsOf step observations).flatten = observations ∧
      (∀ run ∈ runsOf step observations, run ≠ [] ∧ run.IsChain fun a b => continues step a b = true) ∧
      (runsOf step observations).IsChain fun r s => ¬(r ++ s).IsChain fun a b => continues step a b = true := by
  have hruns : ∀ run ∈ runsOf step observations, run ≠ [] ∧ run.IsChain fun a b => continues step a b = true :=
    fun run hrun => ⟨List.ne_nil_of_mem_splitBy hrun, List.isChain_of_mem_splitBy hrun⟩
  refine ⟨List.flatten_splitBy _ _, hruns, ?_⟩
  refine (List.isChain_getLast_head_splitBy (continues step) observations).imp fun r s => ?_
  rintro ⟨hr, hs, hsplit⟩ hchain
  obtain ⟨-, -, hjoin⟩ := List.isChain_append.mp hchain
  have hcont := hjoin (r.getLast hr) (List.getLast?_eq_some_getLast hr) (s.head hs) (List.head?_eq_some_head hs)
  rw [hsplit] at hcont
  cases hcont

end Runs

/-! ### Flags -/

/-- From a value on, the flags are merged to that value if all of them have it. -/
theorem mergeFlag_some (note : String) {a b : Bool} {flags : List (Option Bool)} :
    (mergeFlag note (some a) flags).1 = some b ↔ a = b ∧ ∀ c, some c ∈ flags → c = a := by
  induction flags with
  | nil => simp [mergeFlag]
  | cons flag flags ih =>
    cases flag with
    | none => simp [mergeFlag, ih]
    | some c =>
      rw [mergeFlag]
      split
      · rename_i hne
        refine iff_of_false nofun fun h => hne (h.2 c (List.mem_cons_self ..)).symm
      · rename_i heq
        obtain rfl := not_not.mp heq
        simp [ih]

/-- The flags are merged to the value that some of them have and that no other one contradicts. -/
theorem mergeFlag_none (note : String) {b : Bool} {flags : List (Option Bool)} :
    (mergeFlag note none flags).1 = some b ↔ some b ∈ flags ∧ ∀ c, some c ∈ flags → c = b := by
  induction flags with
  | nil => simp [mergeFlag]
  | cons flag flags ih =>
    cases flag with
    | none => simp [mergeFlag, ih]
    | some c =>
      rw [mergeFlag, mergeFlag_some]
      constructor
      · rintro ⟨rfl, h⟩
        exact ⟨List.mem_cons_self .., by simpa using h⟩
      · rintro ⟨-, h⟩
        obtain rfl := h c (List.mem_cons_self ..)
        exact ⟨rfl, fun d hd => h d (List.mem_cons_of_mem _ hd)⟩

theorem mergeFlag_run (note : String) (flag : ReadProbeObservation → Option Bool) {run : List ReadProbeObservation}
    {b : Bool} :
    (mergeFlag note none (run.map flag)).1 = some b ↔
      (∃ o ∈ run, flag o = some b) ∧ ∀ o ∈ run, ∀ c, flag o = some c → c = b := by
  rw [mergeFlag_none, List.mem_map]
  refine and_congr_right fun _ => ⟨fun h o ho c hc => h c (List.mem_map.mpr ⟨o, ho, hc⟩), fun h c hc => ?_⟩
  obtain ⟨o, ho, hflag⟩ := List.mem_map.mp hc
  exact h o ho c hflag

/-! ### Summary -/

/-- What the status of a span says. -/
inductive SpanClass where
  | readable | empty | failed | inconclusive
  deriving Repr, DecidableEq

def ReadStatus.spanClass : ReadStatus → SpanClass
  | .success => .readable
  | .emptyRead => .empty
  | .inconclusive => .inconclusive
  | .rejected | .timeout | .transportErr | .protocolErr | .shortRead => .failed

def RangeProbeSummary.spansIn (summary : RangeProbeSummary) : SpanClass → List ReadableSpan
  | .readable => summary.readableSpans
  | .empty => summary.emptySpans
  | .failed => summary.failedSpans
  | .inconclusive => summary.inconclusiveSpans

/-- The summary has every span once, in the list of its class, and in order within one status. -/
structure Summarizes (spans : List ReadableSpan) (summary : RangeProbeSummary) : Prop where
  classes : ∀ cls, ∀ span ∈ summary.spansIn cls, span.status.spanClass = cls
  order : ∀ status : ReadStatus,
    (summary.spansIn status.spanClass).filter (·.status == status) = spans.filter (·.status == status)
  once : (summary.readableSpans ++ summary.emptySpans ++ summary.failedSpans ++ summary.inconclusiveSpans).Perm spans

section Summary
variable (spans : List ReadableSpan)

theorem byStatus_eq (status : ReadStatus) : byStatus spans status = spans.filter (·.status == status) := by
  have hfold : ∀ (found : ReadStatus → List ReadableSpan),
      spans.foldl (fun found span => Function.update found span.status (found span.status ++ [span])) found status =
        found status ++ spans.filter (·.status == status) := by
    induction spans with
    | nil => simp
    | cons span spans ih =>
      intro found
      rw [List.foldl_cons, ih, List.filter_cons]
      by_cases h : span.status = status
      · subst h
        simp
      · have hne : (span.status == status) = false := by simpa using h
        rw [Function.update_of_ne (Ne.symm h), hne]
        rfl
  exact hfold fun _ => []

theorem count_filter_status (span : ReadableSpan) (status : ReadStatus) :
    (spans.filter (·.status == status)).count span = if span.status = status then spans.count span else 0 := by
  split
  · rename_i h
    exact List.count_filter (by simpa using h)
  · rename_i h
    exact List.count_eq_zero.mpr fun hmem => h (by simpa using (List.mem_filter.mp hmem).2)

theorem mem_byStatus {span : ReadableSpan} {status : ReadStatus} :
    span ∈ byStatus spans status ↔ span ∈ spans ∧ span.status = status := by
  simp [byStatus_eq]

theorem filter_byStatus (status other : ReadStatus) :
    (byStatus spans other).filter (·.status == status) =
      if other = status then spans.filter (·.status == status) else [] := by
  rw [byStatus_eq, List.filter_filter]
  split
  · rename_i h
    subst h
    simp
  · rename_i h
    refine List.filter_eq_nil_iff.mpr fun span _ hboth => h ?_
    simp only [Bool.and_eq_true, beq_iff_eq] at hboth
    exact hboth.2.symm.trans hboth.1

theorem summarize_spec : Summarizes spans (summarize spans) := by
  refine ⟨fun cls span hspan => ?_, fun status => ?_, List.perm_iff_count.mpr fun span => ?_⟩
  · cases cls with
    | readable => rw [((mem_byStatus spans).mp hspan).2]; rfl
    | empty => rw [((mem_byStatus spans).mp hspan).2]; rfl
    | inconclusive => rw [((mem_byStatus spans).mp hspan).2]; rfl
    | failed =>
      obtain ⟨status, hstatus, hspan⟩ := List.mem_flatMap.mp hspan
      rw [((mem_byStatus spans).mp hspan).2]
      simp only [List.mem_cons, List.not_mem_nil, or_false] at hstatus
      rcases hstatus with rfl | rfl | rfl | rfl | rfl <;> rfl
  · cases status <;>
      simp [ReadStatus.spanClass, RangeProbeSummary.spansIn, summarize, filter_byStatus]
  · simp only [summarize, List.flatMap_cons, List.flatMap_nil, List.count_append, byStatus_eq, count_filter_status]
    cases span.status <;> simp

end Summary

/-! ### Consolidation -/

/-- What a span says of its run. -/
structure DescribesRun (probeSize : Int64) (run : List ReadProbeObservation) (span : ReadableSpan) : Prop where
  start : run.head?.map (·.offset) = some span.start
  stop : run.getLast?.map (·.offset + probeSize) = some span.stop
  status : ∀ o ∈ run, o.result.status = span.status
  stable : ∀ b, span.stable = some b ↔
    (∃ o ∈ run, o.stable = some b) ∧ ∀ o ∈ run, ∀ c, o.stable = some c → c = b
  allZero : ∀ b, span.allZero = some b ↔
    (∃ o ∈ run, o.allZero = some b) ∧ ∀ o ∈ run, ∀ c, o.allZero = some c → c = b

section Consolidate
variable {step probeSize : Int64}

/-- All observations of a run have the status of the first. -/
theorem status_of_isChain {run : List ReadProbeObservation} {first : ReadProbeObservation}
    (hchain : run.IsChain fun a b => continues step a b = true) (hfirst : run.head? = some first) :
    ∀ o ∈ run, o.result.status = first.result.status := by
  induction run generalizing first with
  | nil => cases hfirst
  | cons a run ih =>
    cases hfirst
    rintro o (_ | ⟨_, ho⟩)
    · rfl
    · cases run with
      | nil => cases ho
      | cons b run =>
        obtain ⟨hcont, hchain⟩ := List.isChain_cons_cons.mp hchain
        rw [ih hchain rfl o ho]
        exact (continues_iff.mp hcont).1

theorem SpanOfRun.describes {run : List ReadProbeObservation} {span : ReadableSpan} (h : SpanOfRun probeSize run span)
    (hchain : run.IsChain fun a b => continues step a b = true) : DescribesRun probeSize run span := by
  obtain ⟨first, last, hfirst, hlast, rfl⟩ := h
  exact ⟨by rw [hfirst]; rfl, by rw [hlast]; rfl, status_of_isChain hchain hfirst, fun _ => mergeFlag_run _ _,
    fun _ => mergeFlag_run _ _⟩

theorem consolidateSpans_eq (observations : List ReadProbeObservation) (probeSize : Int64) (hstep : 1 ≤ step.toInt) :
    consolidateSpans observations step probeSize =
      (spansOf step probeSize observations, summarize (spansOf step probeSize observations)) := by
  have hpos : ¬step ≤ 0 := by
    rw [Int64.le_iff_toInt_le]
    exact Int.not_le.mpr hstep
  unfold consolidateSpans
  rw [if_neg hpos]
  split
  · rename_i hlen
    obtain rfl := List.eq_nil_of_length_eq_zero hlen
    rw [spansOf]
    rfl
  · rfl

theorem consolidateSpans_describes (observations : List ReadProbeObservation) (step probeSize : Int64)
    (hstep : 1 ≤ step.toInt) :
    List.Forall₂ (DescribesRun probeSize) (runsOf step observations)
      (consolidateSpans observations step probeSize).1 := by
  rw [consolidateSpans_eq observations probeSize hstep]
  have hchained := (List.forall₂_and_left _ _).mpr
    ⟨fun run hrun => ((runsOf_spec step observations).2.1 run hrun).2, spansOf_runs step probeSize observations⟩
  exact hchained.imp fun run span h => h.2.describes h.1

end Consolidate

/-- Consolidation is a partition into longest runs, with the spans of the runs in order and sorted into the summary. -/
theorem consolidateSpans_partition (observations : List ReadProbeObservation) (step probeSize : Int64)
    (hstep : 1 ≤ step.toInt) :
    ∃ runs : List (List ReadProbeObservation), runs.flatten = observations ∧
      (∀ run ∈ runs, run ≠ [] ∧ run.IsChain fun a b =>
        b.result.status = a.result.status ∧ b.offset = a.offset + step) ∧
      (runs.IsChain fun r s => ¬(r ++ s).IsChain fun a b =>
        b.result.status = a.result.status ∧ b.offset = a.offset + step) ∧
      List.Forall₂ (DescribesRun probeSize) runs (consolidateSpans observations step probeSize).1 ∧
      Summarizes (consolidateSpans observations step probeSize).1 (consolidateSpans observations step probeSize).2 := by
  obtain ⟨hflatten, hruns, hapart⟩ := runsOf_spec step observations
  have hspans := consolidateSpans_describes observations step probeSize hstep
  simp only [← continues_iff]
  refine ⟨runsOf step observations, hflatten, hruns, hapart, hspans, ?_⟩
  rw [consolidateSpans_eq observations probeSize hstep]
  exact summarize_spec _

/-- A full read of `size` bytes. -/
def readAt (offset : Int64) (size : Nat) : ReadProbeObservation where
  offset := offset
  result :=
    { status := .success, requestedLength := size, returnedLength := size, data := List.replicate size 1 }

/-- Two reads a step of ten bytes apart are one run. -/
theorem consolidateSpans_reads (size : Nat) (probeSize : Int64) :
    (consolidateSpans [readAt 0 size, readAt 10 size] 10 probeSize).1 =
      [{ start := 0, stop := 10 + probeSize, status := .success }] := by
  rw [consolidateSpans_eq _ _ (by decide)]
  simp [spansOf, readAt, extendRun, spanOf, mergeFlag]

theorem consolidateSpans_partition_reads :
    ∃ runs : List (List ReadProbeObservation), runs.flatten = [readAt 0 4, readAt 10 4] ∧
      List.Forall₂ (DescribesRun 4) runs [{ start := 0, stop := 14, status := .success }] := by
  obtain ⟨runs, hflatten, -, -, hspans, -⟩ := consolidateSpans_partition [readAt 0 4, readAt 10 4] 10 4 (by decide)
  rw [consolidateSpans_reads] at hspans
  exact ⟨runs, hflatten, hspans⟩

/-! ### Coverage -/

/-- Every byte of the span lies in a probe with the status of the span. -/
def Probed (observations : List ReadProbeObservation) (probeSize : Int64) (span : ReadableSpan) : Prop :=
  ∀ x : Int, span.start.toInt ≤ x → x < span.stop.toInt → ∃ o ∈ observations, o.result.status = span.status ∧
    o.offset.toInt ≤ x ∧ x < o.offset.toInt + probeSize.toInt

/-- The last probe of the run ends past the largest integer, so that the end of its span wraps. -/
def EndsPast (probeSize : Int64) (run : List ReadProbeObservation) : Prop :=
  ∀ last ∈ run.getLast?, 2 ^ 63 ≤ last.offset.toInt + probeSize.toInt

section Coverage
variable {step probeSize : Int64} {observations run : List ReadProbeObservation} {span : ReadableSpan}

/-- At increasing offsets no sum has wrapped, so that a run is a chain of exact steps. -/
theorem isChain_offsets (hstep : 1 ≤ step.toInt) (hchain : run.IsChain fun a b => continues step a b = true)
    (hinc : run.Pairwise fun a b => a.offset.toInt < b.offset.toInt) :
    (run.map fun o => o.offset.toInt).IsChain fun a b => b = a + step.toInt := by
  induction run with
  | nil => exact .nil
  | cons a run ih =>
    cases run with
    | nil => exact .singleton _
    | cons b run =>
      obtain ⟨hcont, hchain⟩ := List.isChain_cons_cons.mp hchain
      obtain ⟨ha, hinc⟩ := List.pairwise_cons.mp hinc
      have hlt := ha b (List.mem_cons_self ..)
      rw [(continues_iff.mp hcont).2] at hlt
      have hsum := toInt_add_of_gt (by omega) hlt
      rw [← (continues_iff.mp hcont).2] at hsum
      exact List.isChain_cons_cons.mpr ⟨hsum, ih hchain hinc⟩

/-- A run is a piece of the observations. -/
theorem runsOf_piece (hrun : run ∈ runsOf step observations) :
    ∃ before after, observations = before ++ run ++ after := by
  obtain ⟨runs₁, runs₂, hsplit⟩ := List.append_of_mem hrun
  refine ⟨runs₁.flatten, runs₂.flatten, ?_⟩
  rw [← (runsOf_spec step observations).1, hsplit]
  simp

/-- A span that ends no later than its first probe is probed. -/
theorem DescribesRun.probed_of_first (hspan : DescribesRun probeSize run span) (hsub : run ⊆ observations)
    {first : ReadProbeObservation} (hfirst : run.head? = some first)
    (hstop : span.stop.toInt ≤ first.offset.toInt + probeSize.toInt) : Probed observations probeSize span := by
  have hstart : first.offset = span.start := by simpa [hfirst] using hspan.start
  intro x hx hx'
  rw [← hstart] at hx
  have hmem := List.mem_of_mem_head? hfirst
  exact ⟨first, hsub hmem, hspan.status first hmem, hx, by omega⟩

/-- A span whose end has not wrapped is probed without a gap if the steps are no larger than the probes. -/
theorem DescribesRun.probed_of_le (hspan : DescribesRun probeSize run span) (hsub : run ⊆ observations)
    (hchain : (run.map fun o => o.offset.toInt).IsChain fun a b => b = a + step.toInt)
    {first last : ReadProbeObservation} (hfirst : run.head? = some first) (hlast : run.getLast? = some last)
    (hstop : span.stop.toInt = last.offset.toInt + probeSize.toInt) (hle : step.toInt ≤ probeSize.toInt) :
    Probed observations probeSize span := by
  have hstart : first.offset = span.start := by simpa [hfirst] using hspan.start
  intro x hx hx'
  rw [← hstart] at hx
  have hfirst' : (run.map fun o => o.offset.toInt).head? = some first.offset.toInt := by simp [hfirst]
  have hlast' : (run.map fun o => o.offset.toInt).getLast? = some last.offset.toInt := by simp [hlast]
  obtain ⟨y, hy, hyx, hxy⟩ := covered_of_isChain hle hchain hfirst' hlast' hx (by omega)
  obtain ⟨o, ho, rfl⟩ := List.mem_map.mp hy
  exact ⟨o, hsub ho, hspan.status o ho, hyx, hxy⟩

/-- Steps larger than the probes leave the byte after the first probe unread. -/
theorem not_probed_of_gap {a b last : ReadProbeObservation} {rest before after : List ReadProbeObservation}
    (hspan : DescribesRun probeSize (a :: b :: rest) span)
    (hinc : (before ++ (a :: b :: rest) ++ after).Pairwise fun a b => a.offset.toInt < b.offset.toInt)
    (hlast : (a :: b :: rest).getLast? = some last) (hsize : 1 ≤ probeSize.toInt)
    (hstop : span.stop.toInt = last.offset.toInt + probeSize.toInt)
    (hgap : a.offset.toInt + probeSize.toInt < b.offset.toInt) :
    ¬Probed (before ++ (a :: b :: rest) ++ after) probeSize span := by
  intro hprobed
  have hstart : a.offset = span.start := by simpa using hspan.start
  obtain ⟨-, hrun, -⟩ := List.pairwise_append.mp (List.pairwise_append.mp hinc).1
  have hend : a.offset.toInt < last.offset.toInt := by
    rw [List.getLast?_cons_cons] at hlast
    exact (List.pairwise_cons.mp hrun).1 last (List.mem_of_getLast? hlast)
  obtain ⟨o, ho, -, hle, hlt⟩ := hprobed (a.offset.toInt + probeSize.toInt)
    (by rw [← hstart]; omega) (by omega)
  rw [List.append_assoc, List.cons_append, List.cons_append] at hinc ho
  exact uncovered_of_gap (fun o => o.offset.toInt) hgap hinc o ho ⟨hle, hlt⟩

theorem probed_iff (hstep : 1 ≤ step.toInt) (hsize : 1 ≤ probeSize.toInt)
    (hinc : observations.Pairwise fun a b => a.offset.toInt < b.offset.toInt) (hrun : run ∈ runsOf step observations)
    (hspan : DescribesRun probeSize run span) :
    Probed observations probeSize span ↔
      step.toInt ≤ probeSize.toInt ∨ (2 ≤ run.length → EndsPast probeSize run) := by
  obtain ⟨hne, hcont⟩ := (runsOf_spec step observations).2.1 run hrun
  obtain ⟨before, after, rfl⟩ := runsOf_piece hrun
  have hsub : run ⊆ before ++ run ++ after := fun o ho => by simp [ho]
  have hchain := isChain_offsets hstep hcont (List.pairwise_append.mp (List.pairwise_append.mp hinc).1).2.1
  obtain ⟨first, hfirst⟩ : ∃ first, run.head? = some first := ⟨_, List.head?_eq_some_head hne⟩
  obtain ⟨last, hlast⟩ : ∃ last, run.getLast? = some last := ⟨_, List.getLast?_eq_some_getLast hne⟩
  have hstop : last.offset + probeSize = span.stop := by simpa [hlast] using hspan.stop
  by_cases hpast : 2 ^ 63 ≤ last.offset.toInt + probeSize.toInt
  · -- the end wraps to before the end of the first probe
    refine iff_of_true (hspan.probed_of_first hsub hfirst ?_) (.inr fun _ l hl => ?_)
    · have hlo := first.offset.le_toInt
      have hhi := last.offset.toInt_lt
      rw [← hstop, toInt_add_of_ge (by omega) hpast]
      omega
    · cases hl.symm.trans hlast
      exact hpast
  · have hend : span.stop.toInt = last.offset.toInt + probeSize.toInt := by
      rw [← hstop, toInt_add_of_lt (by omega) (by omega)]
    by_cases hle : step.toInt ≤ probeSize.toInt
    · exact iff_of_true (hspan.probed_of_le hsub hchain hfirst hlast hend hle) (.inl hle)
    · match run, hne with
      | [a], _ =>
        obtain rfl : a = first := Option.some.inj hfirst
        obtain rfl : a = last := Option.some.inj hlast
        exact iff_of_true (hspan.probed_of_first hsub rfl (by omega)) (.inr fun h => by simp at h)
      | a :: b :: rest, _ =>
        have hnext : b.offset.toInt = a.offset.toInt + step.toInt := (List.isChain_cons_cons.mp hchain).1
        refine iff_of_false (not_probed_of_gap hspan hinc hlast hsize hend (by omega)) ?_
        rintro (h | h)
        · exact hle h
        · exact hpast (h (by simp) last hlast)

end Coverage

/-- The spans of increasing observations are probed byte by byte just when the steps are no larger than the probes, or
    every run of two or more probes ends past the largest integer. -/
theorem spans_probed_iff (observations : List ReadProbeObservation) (step probeSize : Int64)
    (hinc : observations.Pairwise fun a b => a.offset.toInt < b.offset.toInt) (hstep : 1 ≤ step.toInt)
    (hsize : 1 ≤ probeSize.toInt) :
    (∀ span ∈ (consolidateSpans observations step probeSize).1, Probed observations probeSize span) ↔
      step.toInt ≤ probeSize.toInt ∨
        ∀ run ∈ runsOf step observations, 2 ≤ run.length → EndsPast probeSize run := by
  have hspans := consolidateSpans_describes observations step probeSize hstep
  constructor
  · intro h
    by_cases hle : step.toInt ≤ probeSize.toInt
    · exact .inl hle
    · refine .inr fun run hrun => ?_
      obtain ⟨span, hspan, hdesc⟩ := exists_right_of_forall₂ hspans hrun
      exact ((probed_iff hstep hsize hinc hrun hdesc).mp (h span hspan)).resolve_left hle
  · intro h span hspan
    obtain ⟨run, hrun, hdesc⟩ := exists_left_of_forall₂ hspans hspan
    exact (probed_iff hstep hsize hinc hrun hdesc).mpr (h.imp_right fun h => h run hrun)

theorem adjacent_reads_probed :
    (consolidateSpans [readAt 0 10, readAt 10 10] 10 10).1 = [{ start := 0, stop := 20, status := .success }] ∧
      Probed [readAt 0 10, readAt 10 10] 10 { start := 0, stop := 20, status := .success } := by
  have hspans := consolidateSpans_reads 10 10
  have hinc : [readAt 0 10, readAt 10 10].Pairwise fun a b => a.offset.toInt < b.offset.toInt := by simp [readAt]
  have hprobed := (spans_probed_iff _ 10 10 hinc (by decide) (by decide)).mpr (.inl (by decide))
  exact ⟨hspans, hprobed _ (by rw [hspans]; exact List.mem_singleton_self _)⟩

/-- Two reads of four bytes, ten bytes apart, make a readable span of 14 bytes; nobody read the byte 4 of it. -/
theorem distant_reads_not_probed :
    (consolidateSpans [readAt 0 4, readAt 10 4] 10 4).1 = [{ start := 0, stop := 14, status := .success }] ∧
      ¬Probed [readAt 0 4, readAt 10 4] 4 { start := 0, stop := 14, status := .success } := by
  refine ⟨consolidateSpans_reads 4 4, fun hprobed => ?_⟩
  obtain ⟨o, ho, -, hle, hlt⟩ := hprobed 4 (by decide) (by decide)
  simp only [List.mem_cons, List.not_mem_nil, or_false] at ho
  rcases ho with rfl | rfl
  · exact absurd hlt (by decide)
  · exact absurd hle (by decide)

end S7Comm
