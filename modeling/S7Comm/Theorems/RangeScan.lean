import S7Comm.Client.RangeScan
import S7Comm.Lib.Runs

/-! The offsets of a range scan. The loop adds the step until the end is passed; near the largest integer the sum wraps
    before that. -/

namespace S7Comm
open Go

theorem scanStep_pos (req : RangeProbeRequest) : 0 < req.scanStep.toInt := by
  unfold RangeProbeRequest.scanStep
  dsimp only
  generalize (if req.step ≤ 0 then req.probeSize else req.step) = step
  split
  · decide
  · rename_i h
    rw [Int64.le_iff_toInt_le] at h
    exact Int.not_le.mp h

/-! ### The loop -/

section Loop
variable {stop step o : Int64} {fuel : Nat} {offs : List Int64}

theorem probeOffsets_of_lt (h : o.toInt < stop.toInt) :
    probeOffsets stop step (fuel + 1) o = some offs ↔
      ∃ later, probeOffsets stop step fuel (o + step) = some later ∧ offs = o :: later := by
  rw [probeOffsets, if_pos (Int64.lt_iff_toInt_lt.mpr h), Option.map_eq_some_iff]
  simp only [eq_comm]

theorem probeOffsets_of_ge (h : stop.toInt ≤ o.toInt) : probeOffsets stop step (fuel + 1) o = some [] := by
  rw [probeOffsets, if_neg fun hlt => by rw [Int64.lt_iff_toInt_lt] at hlt; omega]

/-- No step from a value below the end goes past the largest integer. -/
def StaysInRange (start stop step : Int) : Prop := ∀ k : Nat, start + k * step < stop → start + (k + 1) * step < 2 ^ 63

theorem StaysInRange.next {start stop step : Int} (h : StaysInRange start stop step) :
    StaysInRange (start + step) stop step := by
  intro k hk
  have hnext := h (k + 1) (by push_cast; linarith)
  push_cast at hnext
  linarith

/-- The loop ends with all values below the end, in increasing order. -/
structure Collects (start stop step : Int) (offs : List Int64) : Prop where
  increasing : offs.Pairwise fun a b => a.toInt < b.toInt
  values : ∀ x : Int, x ∈ offs.map Int64.toInt ↔ ∃ k : Nat, x = start + k * step ∧ x < stop

theorem collects_nil {start stop step : Int} (hstep : 0 < step) (h : stop ≤ start) : Collects start stop step [] := by
  refine ⟨.nil, fun x => ⟨nofun, ?_⟩⟩
  rintro ⟨k, rfl, hlt⟩
  have := Int.mul_nonneg (Int.natCast_nonneg k) (Int.le_of_lt hstep)
  omega

theorem Collects.cons {stop step : Int} (hstep : 0 < step) (hlt : o.toInt < stop)
    (h : Collects (o.toInt + step) stop step offs) : Collects o.toInt stop step (o :: offs) := by
  constructor
  · refine List.pairwise_cons.mpr ⟨fun a ha => ?_, h.increasing⟩
    obtain ⟨k, hk, -⟩ := (h.values a.toInt).mp (List.mem_map_of_mem ha)
    have := Int.mul_nonneg (Int.natCast_nonneg k) (Int.le_of_lt hstep)
    omega
  · intro x
    rw [List.map_cons, List.mem_cons, h.values]
    constructor
    · rintro (rfl | ⟨k, rfl, hk⟩)
      · exact ⟨0, by simp, hlt⟩
      · exact ⟨k + 1, by push_cast; ring, hk⟩
    · rintro ⟨_ | k, rfl, hk⟩
      · exact .inl (by simp)
      · exact .inr ⟨k, by push_cast; ring, hk⟩

/-- By induction on the distance to the end. -/
theorem probeOffsets_collects (hstep : 0 < step.toInt) (h : StaysInRange o.toInt stop.toInt step.toInt) :
    ∃ fuel offs, probeOffsets stop step fuel o = some offs ∧ Collects o.toInt stop.toInt step.toInt offs := by
  obtain ⟨n, hn⟩ : ∃ n : Nat, (stop.toInt - o.toInt).toNat ≤ n := ⟨_, Nat.le_refl _⟩
  induction n generalizing o with
  | zero => exact ⟨1, [], probeOffsets_of_ge (by omega), collects_nil hstep (by omega)⟩
  | succ n ih =>
    by_cases hlt : o.toInt < stop.toInt
    · have hsum : (o + step).toInt = o.toInt + step.toInt := by
        have hnext := h 0 (by simpa using hlt)
        exact toInt_add_of_lt (Int.le_of_lt hstep) (by simpa using hnext)
      obtain ⟨fuel, offs, hrun, hcollects⟩ := ih (by rw [hsum]; exact h.next) (by omega)
      rw [hsum] at hcollects
      exact ⟨fuel + 1, o :: offs, (probeOffsets_of_lt hlt).mpr ⟨offs, hrun, rfl⟩, hcollects.cons hstep hlt⟩
    · exact ⟨1, [], probeOffsets_of_ge (by omega), collects_nil hstep (by omega)⟩

/-- A sum that wraps is below the end again, so that the loop goes on with a smaller offset. -/
theorem sum_exact_of_increasing (hstep : 0 < step.toInt) (hlt : o.toInt < stop.toInt)
    (h : probeOffsets stop step (fuel + 1) o = some offs) (hinc : offs.Pairwise fun a b => a.toInt < b.toInt) :
    o.toInt + step.toInt < 2 ^ 63 := by
  by_contra hwrap
  obtain ⟨later, hlater, rfl⟩ := (probeOffsets_of_lt hlt).mp h
  have hsum : (o + step).toInt = _ := toInt_add_of_ge (Int.le_of_lt hstep) (Int.not_lt.mp hwrap)
  have hbound := step.toInt_lt
  cases fuel with
  | zero => cases hlater
  | succ fuel =>
    obtain ⟨last, -, rfl⟩ := (probeOffsets_of_lt (by omega)).mp hlater
    have hfirst := (List.pairwise_cons.mp hinc).1 (o + step) (List.mem_cons_self ..)
    omega

/-- In increasing order no sum has wrapped. By induction on the number of steps. -/
theorem staysInRange_of_increasing (hstep : 0 < step.toInt) (h : probeOffsets stop step fuel o = some offs)
    (hinc : offs.Pairwise fun a b => a.toInt < b.toInt) : StaysInRange o.toInt stop.toInt step.toInt := by
  intro k
  induction k generalizing o fuel offs with
  | zero =>
    intro hlt
    rw [Nat.cast_zero, zero_mul, add_zero] at hlt
    cases fuel with
    | zero => cases h
    | succ fuel => simpa using sum_exact_of_increasing hstep hlt h hinc
  | succ k ih =>
    intro hlt
    have hpos : 0 ≤ (k : Int) * step.toInt := Int.mul_nonneg (Int.natCast_nonneg k) (Int.le_of_lt hstep)
    have hmul : ((k + 1 : Nat) : Int) * step.toInt = k * step.toInt + step.toInt := by
      push_cast
      ring
    have hmul' : (((k + 1 : Nat) : Int) + 1) * step.toInt = (k + 1) * step.toInt + step.toInt := by
      push_cast
      ring
    rw [hmul] at hlt
    have hlt₀ : o.toInt < stop.toInt := by omega
    cases fuel with
    | zero => cases h
    | succ fuel =>
      have hsum : (o + step).toInt = _ :=
        toInt_add_of_lt (Int.le_of_lt hstep) (sum_exact_of_increasing hstep hlt₀ h hinc)
      obtain ⟨later, hlater, rfl⟩ := (probeOffsets_of_lt hlt₀).mp h
      have hnext := ih hlater (List.pairwise_cons.mp hinc).2 (by omega)
      rw [hmul']
      omega

end Loop

/-- The loop over the offsets of a request ends and gives the start, the start and one step, and so on below the end, in
    increasing order. -/
def OffsetsExact (req : RangeProbeRequest) : Prop :=
  ∃ fuel offs, probeOffsets req.stop req.scanStep fuel req.start = some offs ∧
    Collects req.start.toInt req.stop.toInt req.scanStep.toInt offs

/-- The loop ends with exactly the offsets that were asked for, unless the step from the last of them goes past the
    largest integer. -/
theorem offsets_exact_iff (req : RangeProbeRequest) :
    OffsetsExact req ↔ StaysInRange req.start.toInt req.stop.toInt req.scanStep.toInt := by
  constructor
  · rintro ⟨fuel, offs, hrun, hcollects⟩
    exact staysInRange_of_increasing (scanStep_pos req) hrun hcollects.increasing
  · exact probeOffsets_collects (scanStep_pos req)

/-- A scan of the byte before the largest integer, in steps of two. -/
def lastByteRequest : RangeProbeRequest where
  area := areaDB
  dbNumber := 1
  start := Int64.ofNat (2 ^ 63 - 2)
  stop := Int64.ofNat (2 ^ 63 - 1)
  step := 2
  probeSize := 1

/-- From an even offset the loop stays below the largest integer, which is odd, and never ends. -/
theorem probeOffsets_even (fuel : Nat) {o : Int64} (heven : o.toInt % 2 = 0) :
    probeOffsets lastByteRequest.stop lastByteRequest.scanStep fuel o = none := by
  have hstop : lastByteRequest.stop.toInt = 2 ^ 63 - 1 := by decide
  have hstep : lastByteRequest.scanStep.toInt = 2 := by decide
  induction fuel generalizing o with
  | zero => rfl
  | succ fuel ih =>
    have hbound := o.toInt_lt
    have hlt : o < lastByteRequest.stop := by
      rw [Int64.lt_iff_toInt_lt, hstop]
      omega
    have hnext : (o + lastByteRequest.scanStep).toInt % 2 = 0 := by
      by_cases hwrap : o.toInt + lastByteRequest.scanStep.toInt < 2 ^ 63
      · rw [toInt_add_of_lt (by omega) hwrap]
        omega
      · rw [toInt_add_of_ge (by omega) (by omega)]
        omega
    rw [probeOffsets, if_pos hlt, ih hnext]
    rfl

/-- The request is accepted, and its loop never ends. -/
theorem lastByteRequest_never_ends :
    validateRangeProbeRequest lastByteRequest = .ok () ∧
      (∀ fuel, probeOffsets lastByteRequest.stop lastByteRequest.scanStep fuel lastByteRequest.start = none) ∧
      ¬OffsetsExact lastByteRequest := by
  have hnever (fuel : Nat) :
      probeOffsets lastByteRequest.stop lastByteRequest.scanStep fuel lastByteRequest.start = none :=
    probeOffsets_even fuel (by decide)
  refine ⟨by decide, hnever, ?_⟩
  rintro ⟨fuel, offs, hrun, -⟩
  rw [hnever] at hrun
  cases hrun

end S7Comm
