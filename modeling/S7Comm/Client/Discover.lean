import S7Comm.Client.CIDR
import S7Comm.Lib.Machine
import S7Comm.Lib.Slots

/-! Discovery (`client/discover.go`): the probe of one host, and the threads of `Discover`. Every operation on a
    channel, on the wait group or on the context is one step; steps of different threads interleave in any order. -/

namespace S7Comm
open Go

/-! ### Options -/

/-- The type of the source is a string, so that other values occur. -/
inductive SafetyMode where
  | unset
  | conservative
  | normal
  | aggressive
  | other (text : String)
  deriving Repr, DecidableEq

structure DiscoverOpts where
  /-- In milliseconds, as the other times. -/
  timeout : Int64 := 2000
  parallel : Int64 := 10
  rackMin : Int64 := 0
  rackMax : Int64 := 3
  slotMin : Int64 := 0
  slotMax : Int64 := 5
  rateMS : Int64 := 0
  safetyMode : SafetyMode := .unset
  jitterMS : Int64 := 0
  maxAttemptsPerHost : Int64 := 0
  deriving DecidableEq

/-- The presets of a safety mode, where the defaults are still in use. -/
def DiscoverOpts.preset (o : DiscoverOpts) : DiscoverOpts :=
  match o.safetyMode with
  | .unset => { o with safetyMode := .normal }
  | .conservative =>
    { o with
      timeout := if o.timeout = 2000 then 5000 else o.timeout
      parallel := if o.parallel = 10 then 3 else o.parallel
      rateMS := if o.rateMS = 0 then 50 else o.rateMS }
  | .aggressive =>
    { o with
      timeout := if o.timeout = 2000 then 1000 else o.timeout
      parallel := if o.parallel = 10 then 15 else o.parallel }
  | .normal | .other _ => o

/-- The checks of `Discover`. -/
def DiscoverOpts.validate (o : DiscoverOpts) : Res Unit :=
  if o.rackMin > o.rackMax then
    .fail (.validation s!"discover: rack min ({o.rackMin}) must be <= rack max ({o.rackMax})")
  else if o.slotMin > o.slotMax then
    .fail (.validation s!"discover: slot min ({o.slotMin}) must be <= slot max ({o.slotMax})")
  else if o.jitterMS < 0 then .fail (.validation s!"discover: jitter ms must be >= 0, got {o.jitterMS}")
  else if o.maxAttemptsPerHost < 0 then
    .fail (.validation s!"discover: max attempts per host must be >= 0, got {o.maxAttemptsPerHost}")
  else .ok ()

/-! ### One host -/

structure DiscoverResult where
  ip : String := ""
  port : Int := 0
  isS7 : Bool := false
  rack : Int := 0
  slot : Int := 0
  pduSize : Nat := 0
  tsap : String := ""
  error : String := ""
  abandonedReason : String := ""
  deriving Repr, DecidableEq

section Host
variable {γ σ : Type} (env : Env γ σ) (opts : DiscoverOpts)

/-- The checks of the context and the pauses before an attempt. A jitter of no time is a pause that ends at once. -/
def beforeAttempt : Eff σ GoError Unit := do
  worldErr env.ctxErr
  if opts.jitterMS > 0 then worldErr env.wait else pure ()
  if opts.rateMS > 0 then worldErr env.wait else pure ()

/-- A new client connects with this rack and slot, and is closed again. -/
def attemptConnect (port : Int) (rack slot : Int64) : Eff σ GoError ConnectionInfo := fun w =>
  let options : Options := { port, rack := rack.toInt, slot := slot.toInt, timeout := (opts.timeout * 1000000).toInt }
  match connect env options ({}, w) with
  | (.ok _, (s, w')) => (.ok s.connectionInfo, (closeSession env (s, w')).2.2)
  | (.fail err, (_, w')) => (.fail err, w')
  | (.panic, (_, w')) => (.panic, w')

/-- The two loops of `probeS7`, from a rack and a slot on. They have no bound of their own; `none` means that they have
    not ended after `fuel` rounds. -/
def probeFrom (result : DiscoverResult) : (fuel : Nat) → (rack slot attempts : Int64) → σ → Option (DiscoverResult × σ)
  | 0, _, _, _, _ => none
  | fuel + 1, rack, slot, attempts, w =>
    if rack > opts.rackMax then
      some ({ result with error := "no valid COTP+S7 setup for tested rack/slot range" }, w)
    else if slot > opts.slotMax then probeFrom result fuel (rack + 1) opts.slotMin attempts w
    else if opts.maxAttemptsPerHost > 0 ∧ attempts ≥ opts.maxAttemptsPerHost then
      some ({ result with abandonedReason := "max_attempts", error := "max attempts per host reached" }, w)
    else
      match beforeAttempt env opts w with
      | (.panic, _) => none
      | (.fail err, w') => some ({ result with error := err.error, abandonedReason := "context_canceled" }, w')
      | (.ok (), w') =>
        match attemptConnect env opts result.port rack slot w' with
        | (.panic, _) => none
        | (.fail _, w'') => probeFrom result fuel rack (slot + 1) (attempts + 1) w''
        | (.ok info, w'') =>
          some ({ result with
            isS7 := true, rack := info.rack, slot := info.slot, pduSize := info.pduSize,
            tsap := "0x" ++ hexWord info.remoteTSAP }, w'')

def probeS7 (ip : String) (port : Int) (fuel : Nat) (w : σ) : Option (DiscoverResult × σ) :=
  probeFrom env opts { ip, port } fuel opts.rackMin opts.slotMin 0 w

end Host

/-! ### Threads -/

structure Job where
  i : Nat
  ip : String
  deriving Repr, DecidableEq

/-- Where `Discover` is. -/
inductive DiscoverPc where
  /-- In the first pass over the network, with these addresses to come. -/
  | counting (rest : List String) (count : Nat)
  /-- The results and the channels are to be made. -/
  | making (count : Nat)
  | spawning
  /-- The producer is to be started, and then the goroutine that waits for the workers. -/
  | startingProducer
  | startingWaiter
  | collecting
  /-- `out` is closed; the error of the context is next. -/
  | checking
  | returned (results : Option (List DiscoverResult)) (err : Option GoError)
  | panicked
  deriving Repr, DecidableEq

/-- Where the producer is. -/
inductive ProducerPc where
  | idle
  /-- In the second pass over the network, with these addresses to come. -/
  | streaming (rest : List String)
  | closing
  | done
  deriving Repr, DecidableEq

/-- Where a worker is. -/
inductive WorkerPc where
  | receiving
  | probing (j : Job)
  | sending (j : Job) (r : DiscoverResult)
  | done
  deriving Repr, DecidableEq

/-- Where the goroutine is that waits for the workers. -/
inductive WaiterPc where
  | idle
  | waiting
  | closing
  | done
  deriving Repr, DecidableEq

/-- The channel `jobs` is closed when the producer is done, and `out` when the waiter is done. -/
structure DiscoverState where
  /-- The error of the context, once it has ended. -/
  ctx : Option GoError := none
  main : DiscoverPc
  producer : ProducerPc := .idle
  /-- The counter of the producer. -/
  idx : Nat := 0
  waiter : WaiterPc := .idle
  workers : List WorkerPc := []
  jobs : List Job := []
  out : List (Nat × DiscoverResult) := []
  results : Slots DiscoverResult := { vals := [] }
  /-- The probes that have ended, the last one first. -/
  probes : List (Job × DiscoverResult) := []
  deriving Repr, DecidableEq

/-- What a call of `Discover` depends on. -/
structure Discovery (γ σ : Type) where
  /-- What a client of this address meets. -/
  env : String → Env γ σ
  opts : DiscoverOpts
  /-- The addresses that `streamCIDR` yields, in either pass. -/
  hosts : List String
  /-- The most elements for which a channel is made; `make` panics on more. -/
  chanLimit : Nat

/-- An action: the context ends, or a thread takes a step. Where a thread waits for the context and a channel, the
    choice is part of the action. -/
inductive DiscoverAction (σ : Type) where
  | endCtx (err : GoError)
  | main
  | produce
  | stopProducing
  | wait
  | receive (w : Nat)
  | probe (w fuel : Nat) (world : σ)
  | send (w : Nat)
  | leave (w : Nat)

namespace Discovery
variable {γ σ : Type} (d : Discovery γ σ)

/-- The number of workers. -/
def parallel : Int64 := if d.opts.parallel < 1 then 1 else d.opts.parallel

/-- The capacity of `jobs`. -/
def jobsCap : Int64 := d.parallel * 2

def probe (ip : String) (fuel : Nat) (world : σ) : Option DiscoverResult :=
  (probeS7 (d.env ip) d.opts ip 102 fuel world).map Prod.fst

/-- The next step of `Discover` itself. -/
def mainStep (s : DiscoverState) : Option DiscoverState :=
  match s.main with
  | .counting (_ :: rest) count =>
    match s.ctx with
    | some err => some { s with main := .returned none (some err) }
    | none => some { s with main := .counting rest (count + 1) }
  | .counting [] count => some { s with main := .making count }
  | .making count =>
    if count = 0 then some { s with main := .returned (some []) none }
    else if d.jobsCap < 0 ∨ d.jobsCap.toInt > d.chanLimit ∨ count > d.chanLimit then some { s with main := .panicked }
    else some { s with main := .spawning, results := Slots.make {} count }
  | .spawning =>
    if s.workers.length < d.parallel.toInt then some { s with workers := s.workers ++ [.receiving] }
    else some { s with main := .startingProducer }
  | .startingProducer => some { s with main := .startingWaiter, producer := .streaming d.hosts }
  | .startingWaiter => some { s with main := .collecting, waiter := .waiting }
  | .collecting =>
    match s.out with
    | (i, r) :: out =>
      match s.results.write i r with
      | some results => some { s with out, results }
      | none => some { s with main := .panicked }
    | [] => if s.waiter = .done then some { s with main := .checking } else none
  | .checking => some { s with main := .returned (some s.results.vals) s.ctx }
  | .returned .. | .panicked => none

/-- The next step of the producer, where it does not stop. -/
def produceStep (s : DiscoverState) : Option DiscoverState :=
  match s.producer with
  | .streaming (ip :: rest) =>
    if s.jobs.length < d.jobsCap.toInt then
      some { s with producer := .streaming rest, jobs := s.jobs ++ [⟨s.idx, ip⟩], idx := s.idx + 1 }
    else none
  | .streaming [] => some { s with producer := .closing }
  | .closing => some { s with producer := .done }
  | .idle | .done => none

end Discovery

namespace DiscoverState
variable (s : DiscoverState)

/-- The worker is at `pc`. -/
def setWorker (w : Nat) (pc : WorkerPc) : DiscoverState := { s with workers := s.workers.set w pc }

/-- The context has ended, and the callback of the producer returns false. -/
def stopStep : Option DiscoverState :=
  match s.producer, s.ctx with
  | .streaming (_ :: _), some _ => some { s with producer := .closing }
  | _, _ => none

/-- The next step of the goroutine that waits for the workers. -/
def waitStep : Option DiscoverState :=
  match s.waiter with
  | .waiting => if s.workers.all (· == .done) then some { s with waiter := .closing } else none
  | .closing => some { s with waiter := .done }
  | .idle | .done => none

/-- A worker takes the next job, or ends if `jobs` is closed. -/
def receiveStep (w : Nat) : Option DiscoverState :=
  match s.workers[w]?, s.jobs with
  | some .receiving, j :: jobs => some { s.setWorker w (.probing j) with jobs }
  | some .receiving, [] => if s.producer = .done then some (s.setWorker w .done) else none
  | _, _ => none

/-- A worker sends a result; on a closed channel this panics. -/
def sendStep (w : Nat) : Option DiscoverState :=
  match s.workers[w]? with
  | some (.sending j r) =>
    if s.waiter = .done then some { s with main := .panicked }
    else if s.out.length < s.results.vals.length then
      some { s.setWorker w .receiving with out := s.out ++ [(j.i, r)] }
    else none
  | _ => none

/-- The context has ended, and a worker returns without sending its result. -/
def leaveStep (w : Nat) : Option DiscoverState :=
  match s.workers[w]?, s.ctx with
  | some (.sending _ _), some _ => some (s.setWorker w .done)
  | _, _ => none

end DiscoverState

/-- A probe of a worker ends. -/
def Discovery.probeStep {γ σ : Type} (d : Discovery γ σ) (s : DiscoverState) (w fuel : Nat) (world : σ) :
    Option DiscoverState :=
  match s.workers[w]? with
  | some (.probing j) =>
    (d.probe j.ip fuel world).map fun r => { s.setWorker w (.sending j r) with probes := (j, r) :: s.probes }
  | _ => none

def discoverStep {γ σ : Type} (d : Discovery γ σ) (s : DiscoverState) : DiscoverAction σ → Option DiscoverState
  | .endCtx err => if s.ctx = none then some { s with ctx := some err } else none
  | .main => d.mainStep s
  | .produce => d.produceStep s
  | .stopProducing => s.stopStep
  | .wait => s.waitStep
  | .receive w => s.receiveStep w
  | .probe w fuel world => d.probeStep s w fuel world
  | .send w => s.sendStep w
  | .leave w => s.leaveStep w

/-- A call of `Discover` after its checks. -/
def Discovery.start {γ σ : Type} (d : Discovery γ σ) : DiscoverState := { main := .counting d.hosts 0 }

/-- `Discover` up to its first pass: the threads of the call, if the options pass the checks. -/
def discover {γ σ : Type} (env : String → Env γ σ) (opts : DiscoverOpts) (hosts : List String) (chanLimit : Nat) :
    Res (Discovery γ σ × DiscoverState) := do
  let opts := opts.preset
  opts.validate
  let d : Discovery γ σ := { env, opts, hosts, chanLimit }
  pure (d, d.start)

end S7Comm
