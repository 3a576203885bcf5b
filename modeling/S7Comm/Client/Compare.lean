import S7Comm.Client.Connect
import S7Comm.Client.ReadWrite
import S7Comm.Lib.Machine
import S7Comm.Lib.Slots

/-! The comparison of one read across racks and slots (`client/compare.go`): the goroutine of a candidate, the threads
    of `CompareRead`, and the verdict. Every operation on the semaphore, on the results, on the wait group or on the
    context is one step; steps of different threads interleave in any order. -/

namespace S7Comm
open Go

structure RackSlot where
  rack : Int
  slot : Int
  deriving Repr, DecidableEq

structure CompareReadRequest where
  address : String
  port : Int := 0
  candidates : List RackSlot
  area : UInt8
  dbNumber : Int := 0
  offset : Int := 0
  size : Int
  /-- In nanoseconds. -/
  timeout : Int := 0
  parallelism : Int := 0
  deriving Repr, DecidableEq

/-- The white space of `strings.TrimSpace`. -/
def isSpace (c : Char) : Bool :=
  c.toNat ∈ [0x09, 0x0A, 0x0B, 0x0C, 0x0D, 0x20, 0x85, 0xA0, 0x1680, 0x2028, 0x2029, 0x202F, 0x205F, 0x3000] ∨
    (0x2000 ≤ c.toNat ∧ c.toNat ≤ 0x200A)

/-- The loop over the candidates in `validateCompareReadRequest`, from the index `i` on. -/
def validateCandidates : (i : Nat) → List RackSlot → Res Unit
  | _, [] => .ok ()
  | i, cand :: rest =>
    match validateRackSlot cand.rack cand.slot with
    | .fail err => .fail (.validation (s!"candidate {i}: " ++ err.error))
    | .panic => .panic
    | .ok () => validateCandidates (i + 1) rest

def validateCompareReadRequest (req : CompareReadRequest) : Res Unit :=
  if req.address.toList.all isSpace then .fail (.validation "address must be non-empty")
  else if req.port < 0 then .fail (.validation s!"port must be >= 0, got {req.port}")
  else if req.timeout < 0 then .fail (.validation ("timeout must be >= 0, got " ++ durationText req.timeout))
  else if req.size < 0 then .fail (.validation s!"size must be >= 0, got {req.size}")
  else if req.offset < 0 then .fail (.validation s!"offset must be >= 0, got {req.offset}")
  else if req.area = areaDB ∧ req.dbNumber < 0 then
    .fail (.validation s!"DB number must be >= 0, got {req.dbNumber}")
  else validateCandidates 0 req.candidates

/-! ### One candidate -/

structure CompareReadCandidate where
  rack : Int
  slot : Int
  result : ReadResult
  deriving Repr, DecidableEq

def compareCandidateFailure (c : RackSlot) (size : Int) (err : GoError) : CompareReadCandidate :=
  ⟨c.rack, c.slot, newFailedReadResult size.toNat err⟩

def CompareReadRequest.options (req : CompareReadRequest) (cand : RackSlot) : Options where
  port := if req.port = 0 then 102 else req.port
  rack := cand.rack
  slot := cand.slot
  timeout := if req.timeout = 0 then 5000000000 else req.timeout

/-- The goroutine of a candidate, up to the assignment: connect, read and close. A panic has no outcome. -/
def compareCandidate {γ σ : Type} (env : Env γ σ) (req : CompareReadRequest) (cand : RackSlot) (w : σ) :
    Option CompareReadCandidate :=
  match connect env (req.options cand) ({}, w) with
  | (.panic, _) => none
  | (.fail err, _) => some (compareCandidateFailure cand req.size err)
  | (.ok _, st) =>
    match onClient env (req.options cand) (readArea · ⟨req.area, req.dbNumber, req.offset, req.size⟩) st with
    | (.panic, _) => none
    | (.fail err, _) => some (compareCandidateFailure cand req.size err)
    | (.ok res, _) => some ⟨cand.rack, cand.slot, res⟩

/-! ### The verdict -/

/-- The data of a candidate that succeeded. An entry that was not written is the zero value, whose status is empty. -/
def successData : Option CompareReadCandidate → Option Bytes
  | some c => if c.result.status = .success then some c.result.data else none
  | none => none

/-- The loop that compares every entry with `ref`. -/
def allSame (ref : Bytes) : List (Option CompareReadCandidate) → Bool
  | [] => true
  | c :: rest =>
    match successData c with
    | none => false
    | some data => if data ≠ ref then false else allSame ref rest

/-- Whether all candidates agree: they are compared with the first one that succeeded. -/
def rackSlotInsensitive (byCandidate : List (Option CompareReadCandidate)) : Bool :=
  if byCandidate.length < 2 then false
  else
    match byCandidate.findSome? successData with
    | none => false
    | some ref => allSame ref byCandidate

structure CompareReadResult where
  byCandidate : List (Option CompareReadCandidate) := []
  rackSlotInsensitive : Bool := false
  deriving Repr, DecidableEq

/-! ### Threads -/

/-- Where `CompareRead` is. -/
inductive ComparePc where
  /-- At the select for this candidate, or after the last one. -/
  | starting (i : Nat)
  /-- It has taken the semaphore, and starts the goroutine of this candidate. -/
  | spawning (i : Nat)
  /-- The context has ended; the entries from this one on get a failure. -/
  | filling (j : Nat)
  | waiting
  | returned (out : CompareReadResult)
  | panicked
  deriving Repr, DecidableEq

/-- Where the goroutine of a candidate is. -/
inductive ReaderPc where
  | reading
  | writing (c : CompareReadCandidate)
  /-- The deferred receive from the semaphore is next. -/
  | releasing
  | done
  deriving Repr, DecidableEq

structure CompareState where
  /-- The error of the context, once it has ended. -/
  ctx : Option GoError := none
  main : ComparePc
  /-- The tokens in the semaphore. -/
  sem : Nat := 0
  /-- The goroutines, in the order of the candidates. -/
  readers : List ReaderPc := []
  results : Slots (Option CompareReadCandidate)
  deriving Repr, DecidableEq

/-- What a call of `CompareRead` depends on. -/
structure Comparison (γ σ : Type) where
  /-- What the client of this candidate meets. -/
  env : RackSlot → Env γ σ
  req : CompareReadRequest

/-- An action: the context ends, or a thread takes a step. -/
inductive CompareAction (σ : Type) where
  | endCtx (err : GoError)
  | main
  /-- The select of `CompareRead` takes the end of the context. -/
  | cancel
  | read (k : Nat) (world : σ)
  | reader (k : Nat)

namespace Comparison
variable {γ σ : Type} (d : Comparison γ σ)

def parallelism : Int := if d.req.parallelism ≤ 0 then 1 else d.req.parallelism

def read (cand : RackSlot) (world : σ) : Option CompareReadCandidate := compareCandidate (d.env cand) d.req cand world

/-- A call of `CompareRead` after its checks. -/
def start : CompareState where
  main := if d.req.candidates.length = 0 then .returned {} else .starting 0
  results := Slots.make none d.req.candidates.length

/-- The next step of `CompareRead` itself. -/
def mainStep (s : CompareState) : Option CompareState :=
  match s.main with
  | .starting i =>
    if i < d.req.candidates.length then
      if s.sem < d.parallelism then some { s with main := .spawning i, sem := s.sem + 1 } else none
    else some { s with main := .waiting }
  | .spawning i => some { s with main := .starting (i + 1), readers := s.readers ++ [.reading] }
  | .filling j =>
    match d.req.candidates[j]?, s.ctx with
    | some cand, some err =>
      match s.results.write j (some (compareCandidateFailure cand d.req.size err)) with
      | some results => some { s with main := .filling (j + 1), results }
      | none => some { s with main := .panicked }
    | none, _ => some { s with main := .waiting }
    | some _, none => none
  | .waiting =>
    if s.readers.all (· == .done) then
      some { s with main := .returned ⟨s.results.vals, S7Comm.rackSlotInsensitive s.results.vals⟩ }
    else none
  | .returned _ | .panicked => none

/-- A goroutine has the outcome of its candidate. -/
def readStep (s : CompareState) (k : Nat) (world : σ) : Option CompareState :=
  match s.readers[k]?, d.req.candidates[k]? with
  | some .reading, some cand =>
    (d.read cand world).map fun c => { s with readers := s.readers.set k (.writing c) }
  | _, _ => none

end Comparison

namespace CompareState
variable (s : CompareState)

def cancelStep (n : Nat) : Option CompareState :=
  match s.main, s.ctx with
  | .starting i, some _ => if i < n then some { s with main := .filling i } else none
  | _, _ => none

/-- A goroutine writes its entry, or gives back the semaphore and ends. -/
def readerStep (k : Nat) : Option CompareState :=
  match s.readers[k]? with
  | some (.writing c) =>
    match s.results.write k (some c) with
    | some results => some { s with readers := s.readers.set k .releasing, results }
    | none => some { s with main := .panicked }
  | some .releasing =>
    if s.sem > 0 then some { s with readers := s.readers.set k .done, sem := s.sem - 1 } else none
  | _ => none

end CompareState

def compareStep {γ σ : Type} (d : Comparison γ σ) (s : CompareState) : CompareAction σ → Option CompareState
  | .endCtx err => if s.ctx = none then some { s with ctx := some err } else none
  | .main => d.mainStep s
  | .cancel => s.cancelStep d.req.candidates.length
  | .read k world => d.readStep s k world
  | .reader k => s.readerStep k

/-- `CompareRead` up to its loop: the threads of the call, if the request passes the checks. -/
def compareRead {γ σ : Type} (env : RackSlot → Env γ σ) (req : CompareReadRequest) :
    Res (Comparison γ σ × CompareState) := do
  validateCompareReadRequest req
  let d : Comparison γ σ := { env, req }
  pure (d, d.start)

end S7Comm
