import S7Comm.Client.Compare
import S7Comm.Client.Discover
import S7Comm.Client.FollowUp
import S7Comm.Lib.Pool

/-! The rack and slot probe (`client/probe.go`): the probe of one rack and slot, the threads of `ProbeRackSlots`, and
    its summary. As in `CompareRead`, every operation on the semaphore, on the candidates, on the wait group or on a
    context is one step, and steps of different threads interleave in any order. -/

namespace S7Comm
open Go

/-- The last stage that a probe reached. -/
inductive ProbeStage where
  | unset
  | tcp
  | cotp
  | setup
  | query
  deriving Repr, DecidableEq

inductive ProbeStatus where
  | unset
  | unreachable
  | tcpOnly
  | cotpOnly
  | setupOnly
  | validConnect
  | validQuery
  | rejected
  | timeout
  | flaky
  deriving Repr, DecidableEq

inductive Confidence where
  | unset
  | none
  | low
  | high
  deriving Repr, DecidableEq

/-! ### Requests -/

/-- A request; the delay between retries, which nothing reads, is left out. -/
structure RackSlotProbeRequest where
  address : String
  port : Int := 0
  rackMin : Int := 0
  rackMax : Int := 0
  slotMin : Int := 0
  slotMax : Int := 0
  /-- In nanoseconds. -/
  timeout : Int := 0
  parallelism : Int := 0
  delayMS : Int := 0
  stopOnFirst : Bool := false
  localTSAP : Option UInt16 := none
  remoteTSAP : Option UInt16 := none
  safetyMode : SafetyMode := .unset
  jitterMS : Int := 0
  maxAttemptsPerHost : Int := 0
  strict : Bool := false
  confirm : ConfirmationKind := .other ""
  retries : Int := 0
  stopOnFirstConfirmed : Bool := false
  deriving Repr, DecidableEq

def defaultRackSlotProbeRequest (address : String) : RackSlotProbeRequest where
  address := address
  port := 102
  rackMax := 7
  slotMax := 31
  timeout := 2000000000
  parallelism := 4

/-- The timeout of a safety mode. -/
def SafetyMode.probeTimeout : SafetyMode → Int
  | .conservative => 5000000000
  | .aggressive => 1000000000
  | .unset | .normal | .other _ => 2000000000

/-- The parallelism of a safety mode. -/
def SafetyMode.probeParallelism : SafetyMode → Int
  | .conservative => 2
  | .aggressive => 8
  | .unset | .normal | .other _ => 4

def applyProbeDefaults (req : RackSlotProbeRequest) : RackSlotProbeRequest :=
  let mode := if req.safetyMode = .unset then .normal else req.safetyMode
  { req with
    port := if req.port = 0 then 102 else req.port
    timeout := if req.timeout = 0 then mode.probeTimeout else req.timeout
    parallelism := if req.parallelism < 1 then mode.probeParallelism else req.parallelism
    delayMS := if req.delayMS = 0 ∧ mode = .conservative then 50 else req.delayMS
    confirm := if req.strict ∧ (req.confirm = .other "" ∨ req.confirm = .none) then .any else req.confirm }

def validateRackSlotProbeRequest (req : RackSlotProbeRequest) : Res Unit :=
  if req.address.toList.all isSpace then .fail (.validation "address must be non-empty")
  else if req.port < 0 ∨ req.port > 65535 then .fail (.validation s!"port must be 0..65535, got {req.port}")
  else if req.rackMin < 0 ∨ req.rackMin > 7 then .fail (.validation s!"rack min must be 0..7, got {req.rackMin}")
  else if req.rackMax < 0 ∨ req.rackMax > 7 then .fail (.validation s!"rack max must be 0..7, got {req.rackMax}")
  else if req.slotMin < 0 ∨ req.slotMin > 31 then .fail (.validation s!"slot min must be 0..31, got {req.slotMin}")
  else if req.slotMax < 0 ∨ req.slotMax > 31 then .fail (.validation s!"slot max must be 0..31, got {req.slotMax}")
  else if req.rackMin > req.rackMax then
    .fail (.validation s!"rack min must be <= rack max, got min={req.rackMin} max={req.rackMax}")
  else if req.slotMin > req.slotMax then
    .fail (.validation s!"slot min must be <= slot max, got min={req.slotMin} max={req.slotMax}")
  else if req.timeout < 0 then .fail (.validation ("timeout must be >= 0, got " ++ durationText req.timeout))
  else if req.retries < 0 then .fail (.validation s!"retries must be >= 0, got {req.retries}")
  else if req.delayMS < 0 then .fail (.validation s!"delay ms must be >= 0, got {req.delayMS}")
  else if req.parallelism < 0 then .fail (.validation s!"parallelism must be >= 0, got {req.parallelism}")
  else if req.jitterMS < 0 then .fail (.validation s!"jitter ms must be >= 0, got {req.jitterMS}")
  else if req.maxAttemptsPerHost < 0 then
    .fail (.validation s!"max attempts per host must be >= 0, got {req.maxAttemptsPerHost}")
  else .ok ()

/-! ### One rack and slot -/

/-- The result for one rack and slot. The default is the zero value. -/
structure RackSlotCandidate where
  rack : Int := 0
  slot : Int := 0
  localTSAP : UInt16 := 0
  remoteTSAP : UInt16 := 0
  stage : ProbeStage := .unset
  status : ProbeStatus := .unset
  pduSize : Nat := 0
  confirmedBy : ConfirmationKind := .other ""
  confidence : Confidence := .unset
  error : String := ""
  deriving Repr, DecidableEq

/-- What a probe meets of its context and of the network; `τ` names TCP connections, and `γ` COTP connections. -/
structure ProbeEnv (τ γ σ : Type) where
  ctxErr : σ → Option GoError × σ
  wait : σ → Option GoError × σ
  dialContext : σ → Except GoError τ × σ
  /-- The COTP handshake with these TSAPs; the TCP connection is closed if it fails. -/
  connectCOTP : τ → (localTSAP remoteTSAP : UInt16) → σ → Except GoError γ × σ
  writeTSDU : γ → Bytes → σ → Option GoError × σ
  readTSDU : γ → σ → Except GoError Bytes × σ
  close : γ → σ → Option GoError × σ

namespace ProbeEnv
variable {τ γ σ : Type} (env : ProbeEnv τ γ σ)

def dialTCP (w : σ) : Except GoError τ × σ :=
  match env.dialContext w with
  | (.error err, w') => (.error (.wrap ("TCP connect: " ++ err.error) err), w')
  | (.ok raw, w') => (.ok raw, w')

def dialCOTP (localTSAP remoteTSAP : UInt16) (w : σ) : Except GoError γ × σ :=
  match env.dialTCP w with
  | (.error err, w') => (.error err, w')
  | (.ok raw, w') => env.connectCOTP raw localTSAP remoteTSAP w'

/-- The same network as a client meets it. -/
def client : Env γ σ where
  ctxErr := env.ctxErr
  wait := env.wait
  dialCOTP := env.dialCOTP
  writeTSDU := env.writeTSDU
  readTSDU := env.readTSDU
  close := env.close

end ProbeEnv

def isProbeTimeout (err : GoError) : Bool := err.is .deadlineExceeded || err.netTimeout? == some true

/-- A TSAP of a probe: the given one, or that of the rack and the slot. -/
def givenTSAP (given : Option UInt16) (built : Res UInt16) : Res UInt16 :=
  match given with
  | some tsap => pure tsap
  | none => built

def probeTSAPs (req : RackSlotProbeRequest) (rack slot : Int) : Res (UInt16 × UInt16) := do
  let localTSAP ← givenTSAP req.localTSAP (buildTSAP 1 0 0)
  let remoteTSAP ← givenTSAP req.remoteTSAP (buildTSAP 3 rack slot)
  pure (localTSAP, remoteTSAP)

section Probe
variable {τ γ σ : Type} (env : ProbeEnv τ γ σ) (req : RackSlotProbeRequest)

/-- The part of `probeOne` on a connection. -/
def probeConn (conn : γ) (c : RackSlotCandidate) : Eff σ GoError RackSlotCandidate := do
  match ← Eff.attempt (performS7Setup env.client conn 1 1 1 480) with
  | .error err =>
    let status := if isProbeTimeout err then .timeout else if err.isS7 then .rejected else .cotpOnly
    pure { c with stage := .setup, status, error := err.error }
  | .ok setup =>
    let c := { c with pduSize := setup.pduSize }
    if !req.strict then pure { c with stage := .setup, status := .setupOnly, confidence := .low }
    else
      let (ok, confirmedBy, errStr) ← runFollowUp env.client conn 2 req.confirm
      if ok then pure { c with stage := .query, status := .validQuery, confirmedBy, confidence := .high }
      else
        let error := if errStr ≠ "" then "follow-up failed: " ++ errStr else c.error
        pure { c with stage := .query, status := .validConnect, confidence := .low, error }

/-- The part of `probeOne` from the dial on. -/
def probeDial (c : RackSlotCandidate) : Eff σ GoError RackSlotCandidate := do
  match ← Eff.attempt (worldVal env.dialTCP) with
  | .error err =>
    pure { c with
      stage := .tcp, status := if isProbeTimeout err then .timeout else .unreachable, error := err.error }
  | .ok raw =>
    match ← Eff.attempt (worldVal (env.connectCOTP raw c.localTSAP c.remoteTSAP)) with
    | .error err =>
      pure { c with
        stage := .cotp, status := if isProbeTimeout err then .timeout else .tcpOnly, error := err.error }
    | .ok conn =>
      Eff.deferred (Eff.modify fun w => (env.client.closeCOTP (some conn) w).2) (probeConn env req conn c)

def probeOne (rack slot : Int) : Eff σ GoError RackSlotCandidate := do
  let c : RackSlotCandidate := { rack, slot, confidence := .none }
  match ← Eff.attempt (liftM (probeTSAPs req rack slot)) with
  | .error err => pure { c with error := err.error, status := .rejected }
  | .ok (localTSAP, remoteTSAP) => probeDial env req { c with localTSAP, remoteTSAP }

end Probe

/-! ### The summary -/

/-- Setup succeeded. -/
def RackSlotCandidate.accepted (c : RackSlotCandidate) : Bool :=
  c.status == .setupOnly || c.status == .validConnect || c.status == .validQuery

/-- The candidate counts as valid: with `strict`, only when a query confirmed it. -/
def RackSlotCandidate.valid (strict : Bool) (c : RackSlotCandidate) : Bool :=
  if strict then c.status == .validQuery else c.accepted

structure RackSlotProbeResult where
  address : String
  candidates : List RackSlotCandidate
  valid : List RackSlotCandidate
  setupAccepted : Nat
  confirmedByQuery : Nat
  flaky : Nat
  tcpOnly : Nat
  stoppedEarly : Bool
  stoppedReason : String
  deriving Repr, DecidableEq

/-! ### Threads -/

structure ProbeJob where
  rack : Int
  slot : Int
  deriving Repr, DecidableEq

/-- The values of a loop variable from `lo` to `hi`. -/
def loopRange (lo hi : Int) : List Int := (List.range (hi + 1 - lo).toNat).map fun k : Nat => lo + (k : Int)

namespace RackSlotProbeRequest
variable (req : RackSlotProbeRequest)

def jobs : List ProbeJob :=
  (loopRange req.rackMin req.rackMax).flatMap fun rack =>
    (loopRange req.slotMin req.slotMax).map fun slot => ⟨rack, slot⟩

/-- The number of jobs that are done. -/
def maxJobs : Nat :=
  if req.maxAttemptsPerHost > 0 ∧ req.jobs.length > req.maxAttemptsPerHost then req.maxAttemptsPerHost.toNat
  else req.jobs.length

/-- A probe with this result stops the others. -/
def stops (c : RackSlotCandidate) : Bool := c.valid req.strict && (req.stopOnFirst || req.stopOnFirstConfirmed)

def summary (candidates : List RackSlotCandidate) : RackSlotProbeResult where
  address := req.address
  candidates := candidates
  valid := candidates.filter (·.valid req.strict)
  setupAccepted := candidates.countP (·.accepted)
  confirmedByQuery := candidates.countP (·.status == .validQuery)
  flaky := candidates.countP (·.status == .flaky)
  tcpOnly := candidates.countP (·.status == .tcpOnly)
  stoppedEarly := req.maxJobs < req.jobs.length
  stoppedReason := if req.maxJobs < req.jobs.length then "max_attempts_reached" else ""

end RackSlotProbeRequest

/-- Where `ProbeRackSlots` is. -/
inductive ProbePc where
  /-- At the head of the loop, before this job. -/
  | checking (i : Nat)
  /-- At the pauses before this job. -/
  | jittering (i : Nat)
  | delaying (i : Nat)
  /-- At the select with the semaphore. -/
  | acquiring (i : Nat)
  | spawning (i : Nat)
  | waiting
  /-- All probes have ended; the error of the caller's context is next. -/
  | finishing
  | returned (out : RackSlotProbeResult) (err : Option GoError)
  deriving Repr, DecidableEq

structure ProbeState where
  /-- The error of the caller's context, once it has ended. -/
  ctx : Option GoError := none
  /-- A probe has canceled the context of the probes. -/
  canceled : Bool := false
  main : ProbePc
  pool : Pool RackSlotCandidate
  deriving Repr, DecidableEq

/-- What a call of `ProbeRackSlots` depends on. The request is the one after the defaults. -/
structure Probing (τ γ σ : Type) where
  env : ProbeJob → ProbeEnv τ γ σ
  req : RackSlotProbeRequest

/-- An action: the caller's context ends, or a thread takes a step. -/
inductive ProbeAction (σ : Type) where
  | endCtx (err : GoError)
  | main
  /-- A select of `ProbeRackSlots` takes the end of the context of the probes. -/
  | stop
  | probe (k : Nat) (world : σ)
  | prober (k : Nat)

namespace ProbeState
variable (s : ProbeState)

/-- The context of the probes has ended. -/
def ended : Bool := s.ctx.isSome || s.canceled

end ProbeState

namespace Probing
variable {τ γ σ : Type} (d : Probing τ γ σ)

/-- The call of `probeOne`; a panic has no result. -/
def probe (job : ProbeJob) (world : σ) : Option RackSlotCandidate :=
  match (probeOne (d.env job) d.req job.rack job.slot world).1 with
  | .ok c => some c
  | _ => none

/-- The next step of `ProbeRackSlots` itself. -/
def mainStep (s : ProbeState) : Option ProbeState :=
  match s.main with
  | .checking i =>
    if i < d.req.maxJobs then
      if s.ended then some { s with main := .waiting } else some { s with main := .jittering i }
    else some { s with main := .waiting }
  -- A jitter may be of no time, and a pause may end before the context does.
  | .jittering i => some { s with main := .delaying i }
  | .delaying i => some { s with main := .acquiring i }
  | .acquiring i => (s.pool.acquire d.req.parallelism.toNat).map fun pool => { s with main := .spawning i, pool }
  | .spawning i => some { s with main := .checking (i + 1), pool := s.pool.spawn }
  | .waiting => if s.pool.allDone then some { s with main := .finishing } else none
  | .finishing => some { s with main := .returned (d.req.summary s.pool.results.vals) s.ctx }
  | .returned .. => none

/-- The selects that wait for a pause or for the semaphore take the end of the context. -/
def stopStep (s : ProbeState) : Option ProbeState :=
  match s.main with
  | .jittering _ => if d.req.jitterMS > 0 ∧ s.ended then some { s with main := .waiting } else none
  | .delaying i => if d.req.delayMS > 0 ∧ i > 0 ∧ s.ended then some { s with main := .waiting } else none
  | .acquiring _ => if s.ended then some { s with main := .waiting } else none
  | _ => none

/-- A probe has its result. -/
def probeStep (s : ProbeState) (k : Nat) (world : σ) : Option ProbeState := do
  let job ← d.req.jobs[k]?
  let c ← d.probe job world
  let pool ← s.pool.finish k c
  some { s with pool }

/-- The goroutine writes its entry, cancels the context if its result stops the others, or gives back the semaphore. -/
def proberStep (s : ProbeState) (k : Nat) : Option ProbeState :=
  match s.pool.tasks[k]? with
  | some (.writing _) => (s.pool.write k).map fun pool => { s with pool }
  | some (.wrote _) => (s.pool.leave k).map fun (c, pool) => { s with pool, canceled := s.canceled || d.req.stops c }
  | some .releasing => (s.pool.release k).map fun pool => { s with pool }
  | _ => none

def step (s : ProbeState) : ProbeAction σ → Option ProbeState
  | .endCtx err => if s.ctx = none then some { s with ctx := some err } else none
  | .main => d.mainStep s
  | .stop => d.stopStep s
  | .probe k world => d.probeStep s k world
  | .prober k => d.proberStep s k

end Probing

/-- `ProbeRackSlots` up to its loop: the threads of the call, if the request passes the checks. -/
def probeRackSlots {τ γ σ : Type} (env : ProbeJob → ProbeEnv τ γ σ) (req : RackSlotProbeRequest) :
    Res (Probing τ γ σ × ProbeState) := do
  let req := applyProbeDefaults req
  validateRackSlotProbeRequest req
  pure (⟨env, req⟩, { main := .checking 0, pool := Pool.make {} req.jobs.length })

end S7Comm
