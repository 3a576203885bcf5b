import S7Comm.Client.ReadWrite

/-! The range scan (`client/rangescan.go`): probes at a grid of offsets, each read several times, and the spans that
    neighbouring probes with the same status form. Offsets, steps and sizes are Go ints of 64 bits, whose sums wrap. -/

namespace S7Comm
open Go

structure RangeProbeRequest where
  area : UInt8
  dbNumber : Int
  start : Int64
  stop : Int64
  step : Int64
  probeSize : Int64
  retries : Int := 0
  /-- In nanoseconds. -/
  retryDelay : Int := 0
  repeats : Int := 0
  interval : Int := 0
  parallelism : Int := 0
  deriving DecidableEq

def validateRangeProbeRequest (req : RangeProbeRequest) : Res Unit :=
  if req.start > req.stop then
    .fail (.validation s!"start must be <= end, got start={req.start} end={req.stop}")
  else if req.area = areaDB ∧ req.dbNumber < 0 then
    .fail (.validation s!"DB number must be >= 0, got {req.dbNumber}")
  else if req.probeSize < 0 then .fail (.validation s!"probe size must be >= 0, got {req.probeSize}")
  else if req.retries < 0 then .fail (.validation s!"retries must be >= 0, got {req.retries}")
  else if req.repeats < 0 then .fail (.validation s!"repeat must be >= 0, got {req.repeats}")
  else if req.parallelism < 0 then .fail (.validation s!"parallelism must be >= 0, got {req.parallelism}")
  else .ok ()

/-- The distance between probes: the step, or the probe size, or 1. -/
def RangeProbeRequest.scanStep (req : RangeProbeRequest) : Int64 :=
  let step := if req.step ≤ 0 then req.probeSize else req.step
  if step ≤ 0 then 1 else step

def RangeProbeRequest.scanProbeSize (req : RangeProbeRequest) : Int64 :=
  if req.probeSize ≤ 0 then 8 else req.probeSize

/-! ### Offsets -/

/-- The loop that collects the offsets, from the offset `o` on. It has no bound of its own; `none` means that it has not
    ended after `fuel` tests of its condition. -/
def probeOffsets (stop step : Int64) : (fuel : Nat) → (o : Int64) → Option (List Int64)
  | 0, _ => none
  | fuel + 1, o =>
    if o < stop then (probeOffsets stop step fuel (o + step)).map (o :: ·)
    else some []

/-! ### Probes -/

structure ReadProbeObservation where
  offset : Int64 := 0
  request : Address := ⟨0, 0, 0, 0⟩
  result : ReadResult
  stable : Option Bool := none
  allZero : Option Bool := none
  deriving DecidableEq

/-- Two reads with different outcomes. -/
def ReadResult.differs (r s : ReadResult) : Bool := r.status != s.status || r.data != s.data

/-- A later read differs from the first one. -/
def mixedReads : List ReadResult → Bool
  | [] => false
  | first :: later => later.any (·.differs first)

/-- A successful read of at least one byte, and only zeros. -/
def ReadResult.allZero (r : ReadResult) : Bool := r.status == .success && r.data.length > 0 && r.data.all (· == 0)

section Probe
variable {σ : Type} (net : Net σ) (addr : Address)

/-- One read of a probe. -/
def probeRead : ClientM σ ReadResult := do
  match ← Eff.attempt (readArea net addr) with
  | .error err => pure (newFailedReadResult addr.size.toNat err)
  | .ok res => pure res

/-- The loops of `probeOneOffset`: `left` reads, with a pause between them if `pause` says so; an error when the
    context ends. The counter of a loop would wrap only after 2^63 reads. -/
def probeReads (pause : Bool) : (left : Nat) → (first : Bool) → ClientM σ (Except GoError (List ReadResult))
  | 0, _ => pure (.ok [])
  | left + 1, first => do
    match ← Eff.attempt (netErr net.ctxErr) with
    | .error err => pure (.error err)
    | .ok () =>
      match ← Eff.attempt (if pause && !first then netErr net.wait else pure ()) with
      | .error err => pure (.error err)
      | .ok () =>
        let res ← probeRead net addr
        match ← probeReads pause left false with
        | .error err => pure (.error err)
        | .ok later => pure (.ok (res :: later))

end Probe

/-- The number of repeats of a probe. -/
def RangeProbeRequest.repeatCount (req : RangeProbeRequest) : Nat := (max req.repeats 1).toNat

/-- The result of the repeats: the last read, marked if the reads are mixed. -/
def repeatedResult (repeatCount : Nat) (repeated : List ReadResult) (last : ReadResult) : ReadResult :=
  if repeatCount > 1 ∧ repeated.length > 1 ∧ mixedReads repeated then
    { last with status := .inconclusive, message := "repeat reads produced mixed results" }
  else last

/-- The result after the retries. -/
def retriedResult (attempts : List ReadResult) (result : ReadResult) : ReadResult :=
  if attempts.length > 1 ∧ mixedReads attempts then
    { result with status := .inconclusive, message := "retries produced mixed results" }
  else result

/-- The observation of a result, with what the repeats say of its stability. -/
def observe (repeatCount : Nat) (repeated : List ReadResult) (result : ReadResult) : ReadProbeObservation :=
  if repeatCount > 1 ∧ repeated.length > 0 then
    { result, stable := some (!mixedReads repeated), allZero := some (repeated.all ReadResult.allZero) }
  else { result }

/-- The address that a probe reads. -/
def RangeProbeRequest.probeAddress (req : RangeProbeRequest) (offset probeSize : Int64) : Address :=
  ⟨req.area, req.dbNumber, offset.toInt, probeSize.toInt⟩

section Scan
variable {σ : Type} (net : Net σ) (req : RangeProbeRequest)

def probeOneOffset (offset probeSize : Int64) : ClientM σ ReadProbeObservation := do
  let addr := req.probeAddress offset probeSize
  match ← probeReads net addr (req.interval > 0) req.repeatCount true with
  | .error err => pure { offset, request := addr, result := newFailedReadResult addr.size.toNat err }
  | .ok repeated =>
    match repeated.getLast? with
    | none =>
      pure { result := { status := .transportErr, requestedLength := addr.size.toNat, returnedLength := 0, data := [],
                         message := "no reads" } }
    | some last =>
      let result := repeatedResult req.repeatCount repeated last
      if req.retries > 0 then
        match ← probeReads net addr (req.retryDelay > 0) (req.retries.toNat + 1) true with
        | .error err => pure { result := newFailedReadResult addr.size.toNat err }
        | .ok attempts => pure (observe req.repeatCount repeated (retriedResult attempts result))
      else
        pure (observe req.repeatCount repeated result)

/-- The loop over the offsets; an error when the context ends. -/
def scanOffsets (probeSize : Int64) : List Int64 → ClientM σ (Except GoError (List ReadProbeObservation))
  | [] => pure (.ok [])
  | offset :: offsets => do
    match ← Eff.attempt (netErr net.ctxErr) with
    | .error err => pure (.error err)
    | .ok () =>
      let obs ← probeOneOffset net req offset probeSize
      match ← scanOffsets probeSize offsets with
      | .error err => pure (.error err)
      | .ok later => pure (.ok ({ obs with offset, request := req.probeAddress offset probeSize } :: later))

end Scan

/-! ### Spans -/

structure ReadableSpan where
  start : Int64
  stop : Int64
  status : ReadStatus
  stable : Option Bool := none
  allZero : Option Bool := none
  notes : List String := []
  deriving DecidableEq

structure RangeProbeSummary where
  readableSpans : List ReadableSpan := []
  emptySpans : List ReadableSpan := []
  failedSpans : List ReadableSpan := []
  inconclusiveSpans : List ReadableSpan := []
  deriving DecidableEq

section Spans
variable (step probeSize : Int64)

/-- The inner loop: the observations that continue a run of this status after an offset `last`, the end of the span, and
    the observations after the run. -/
def extendRun (status : ReadStatus) :
    (last stop : Int64) → List ReadProbeObservation → List ReadProbeObservation × Int64 × List ReadProbeObservation
  | _, stop, [] => ([], stop, [])
  | last, stop, obs :: rest =>
    if obs.result.status = status ∧ obs.offset = last + step then
      match extendRun status obs.offset (obs.offset + probeSize) rest with
      | (run, stop, rest) => (obs :: run, stop, rest)
    else ([], stop, obs :: rest)

theorem extendRun_length (status : ReadStatus) (last stop : Int64) (rest : List ReadProbeObservation) :
    (extendRun step probeSize status last stop rest).2.2.length ≤ rest.length := by
  induction rest generalizing last stop with
  | nil => exact Nat.le_refl _
  | cons obs rest ih =>
    unfold extendRun
    split
    · exact Nat.le_succ_of_le (ih _ _)
    · exact Nat.le_refl _

/-- What the observations of a run say, if all that say something agree; else a note. -/
def mergeFlag (note : String) : (val : Option Bool) → List (Option Bool) → Option Bool × List String
  | val, [] => (val, [])
  | val, none :: flags => mergeFlag note val flags
  | none, some b :: flags => mergeFlag note (some b) flags
  | some a, some b :: flags => if a ≠ b then (none, [note]) else mergeFlag note (some a) flags

def spanOf (start stop : Int64) (status : ReadStatus) (run : List ReadProbeObservation) : ReadableSpan :=
  let stable := mergeFlag "stable metadata differs across probes" none (run.map (·.stable))
  let allZero := mergeFlag "allZero metadata differs across probes" none (run.map (·.allZero))
  { start, stop, status, stable := stable.1, allZero := allZero.1, notes := stable.2 ++ allZero.2 }

/-- The outer loop of `ConsolidateSpans`. -/
def spansOf : List ReadProbeObservation → List ReadableSpan
  | [] => []
  | obs :: rest =>
    let status := obs.result.status
    let run := extendRun step probeSize status obs.offset (obs.offset + probeSize) rest
    spanOf obs.offset run.2.1 status (obs :: run.1) :: spansOf run.2.2
termination_by observations => observations.length
decreasing_by exact Nat.lt_succ_of_le (extendRun_length ..)

end Spans

/-- The spans of each status, in the order in which they were found. -/
def byStatus (spans : List ReadableSpan) : ReadStatus → List ReadableSpan :=
  spans.foldl (fun found span => Function.update found span.status (found span.status ++ [span])) fun _ => []

def summarize (spans : List ReadableSpan) : RangeProbeSummary where
  readableSpans := byStatus spans .success
  emptySpans := byStatus spans .emptyRead
  inconclusiveSpans := byStatus spans .inconclusive
  failedSpans := [ReadStatus.rejected, .timeout, .transportErr, .protocolErr, .shortRead].flatMap (byStatus spans)

def consolidateSpans (observations : List ReadProbeObservation) (step probeSize : Int64) :
    List ReadableSpan × RangeProbeSummary :=
  if observations.length = 0 then ([], {})
  else
    let step := if step ≤ 0 then probeSize else step
    let spans := spansOf step probeSize observations
    (spans, summarize spans)

/-! ### The scan -/

structure RangeProbeResult where
  area : UInt8
  dbNumber : Int
  spans : List ReadableSpan := []
  probes : List ReadProbeObservation := []
  summary : RangeProbeSummary := {}
  deriving DecidableEq

/-- The part of `ProbeReadableRanges` after the offsets are known. -/
def scanAt {σ : Type} (net : Net σ) (req : RangeProbeRequest) (offsets : List Int64) :
    ClientM σ (RangeProbeResult × Option GoError) := do
  let out : RangeProbeResult := { area := req.area, dbNumber := req.dbNumber }
  let (c, _) ← Eff.get
  if offsets.length > 0 ∧ !c.connected then
    Eff.fail (.sentinel .notConnected)
  else
    match ← scanOffsets net req req.scanProbeSize offsets with
    | .error err => pure (out, some err)
    | .ok probes =>
      let (spans, summary) := consolidateSpans probes req.scanStep req.scanProbeSize
      pure ({ out with spans, probes, summary }, none)

/-- The scan; `none` when the offsets are not known after `fuel` tests. -/
def probeReadableRanges {σ : Type} (net : Net σ) (fuel : Nat) (req : RangeProbeRequest) :
    ClientM σ (Option (RangeProbeResult × Option GoError)) := do
  let _ ← validateRangeProbeRequest req
  match probeOffsets req.stop req.scanStep fuel req.start with
  | none => pure none
  | some offsets =>
    let out ← scanAt net req offsets
    pure (some out)

end S7Comm
