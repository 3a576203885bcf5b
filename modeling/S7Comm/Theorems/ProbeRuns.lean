import S7Comm.Theorems.Probe

/-! The rack and slot probe over all interleavings. The goroutines are a pool that the semaphore bounds; here are the
    thread that starts them, the context that a result may cancel, and what the summary says in the end. -/

namespace S7Comm
open Go

/-! ### What an action can do -/

/-- The loop is before the start of this job. -/
def ProbePc.before : ProbePc → Option Nat
  | .checking i | .jittering i | .delaying i | .acquiring i => some i
  | .spawning _ | .waiting | .finishing | .returned .. => none

/-- The pauses before a job, one after the other. -/
inductive Pause (i : Nat) : ProbePc → ProbePc → Prop
  | jitter : Pause i (.jittering i) (.delaying i)
  | delay : Pause i (.delaying i) (.acquiring i)

section Moves
variable {τ γ σ : Type} (d : Probing τ γ σ) (s : ProbeState)

inductive ProbeMove : ProbeState → Prop
  | ended (err : GoError) : s.ctx = none → ProbeMove { s with ctx := some err }
  | entered {i} : s.main = .checking i → i < d.req.maxJobs → ProbeMove { s with main := .jittering i }
  | paused {i pc} : Pause i s.main pc → ProbeMove { s with main := pc }
  | stopped {i} : s.main.before = some i → s.ended = true → ProbeMove { s with main := .waiting }
  | allStarted {i} : s.main = .checking i → d.req.maxJobs ≤ i → ProbeMove { s with main := .waiting }
  | acquired {i pool} : s.main = .acquiring i → s.pool.acquire d.req.parallelism.toNat = some pool →
      ProbeMove { s with main := .spawning i, pool }
  | spawned {i} : s.main = .spawning i → ProbeMove { s with main := .checking (i + 1), pool := s.pool.spawn }
  | waited : s.main = .waiting → s.pool.allDone → ProbeMove { s with main := .finishing }
  | returned : s.main = .finishing →
      ProbeMove { s with main := .returned (d.req.summary s.pool.results.vals) s.ctx }
  | probed {k job world c pool} : d.req.jobs[k]? = some job → d.probe job world = some c →
      s.pool.finish k c = some pool → ProbeMove { s with pool }
  | wrote {k pool} : s.pool.write k = some pool → ProbeMove { s with pool }
  | left {k c pool} : s.pool.leave k = some (c, pool) →
      ProbeMove { s with pool, canceled := s.canceled || d.req.stops c }
  | released {k pool} : s.pool.release k = some pool → ProbeMove { s with pool }

end Moves

section Inversion
variable {τ γ σ : Type} {d : Probing τ γ σ} {s s' : ProbeState}

theorem mainStep_probe_move (h : d.mainStep s = some s') : ProbeMove d s s' := by
  unfold Probing.mainStep at h
  split at h
  · rename_i i hmain
    split at h
    · split at h
      · cases h
        exact .stopped (by rw [hmain]; rfl) ‹_›
      · cases h
        exact .entered hmain ‹_›
    · cases h
      exact .allStarted hmain (Nat.le_of_not_lt ‹_›)
  · rename_i i hmain
    cases h
    exact .paused (i := i) (by rw [hmain]; exact .jitter)
  · rename_i i hmain
    cases h
    exact .paused (i := i) (by rw [hmain]; exact .delay)
  · obtain ⟨pool, hpool, rfl⟩ := Option.map_eq_some_iff.mp h
    exact .acquired ‹_› hpool
  · cases h
    exact .spawned ‹_›
  · split at h
    · cases h
      exact .waited ‹_› ‹_›
    · cases h
  · cases h
    exact .returned ‹_›
  · cases h

theorem stopStep_probeMove (h : d.stopStep s = some s') : ProbeMove d s s' := by
  unfold Probing.stopStep at h
  split at h
  · rename_i hmain
    split at h
    · rename_i hstop
      cases h
      exact .stopped (by rw [hmain]; rfl) hstop.2
    · cases h
  · rename_i hmain
    split at h
    · rename_i hstop
      cases h
      exact .stopped (by rw [hmain]; rfl) hstop.2.2
    · cases h
  · rename_i hmain
    split at h
    · cases h
      exact .stopped (by rw [hmain]; rfl) ‹_›
    · cases h
  · cases h

theorem probeStep_probeMove {k : Nat} {world : σ} (h : d.probeStep s k world = some s') : ProbeMove d s s' := by
  obtain ⟨job, hjob, h⟩ := Option.bind_eq_some_iff.mp h
  obtain ⟨c, hc, h⟩ := Option.bind_eq_some_iff.mp h
  obtain ⟨pool, hpool, h⟩ := Option.bind_eq_some_iff.mp h
  cases h
  exact .probed hjob hc hpool

theorem proberStep_move {k : Nat} (h : d.proberStep s k = some s') : ProbeMove d s s' := by
  unfold Probing.proberStep at h
  split at h
  · obtain ⟨pool, hpool, rfl⟩ := Option.map_eq_some_iff.mp h
    exact .wrote hpool
  · obtain ⟨⟨c, pool⟩, hpool, rfl⟩ := Option.map_eq_some_iff.mp h
    exact .left hpool
  · obtain ⟨pool, hpool, rfl⟩ := Option.map_eq_some_iff.mp h
    exact .released hpool
  · cases h

theorem step_probe_move {a : ProbeAction σ} (h : d.step s a = some s') : ProbeMove d s s' := by
  cases a with
  | endCtx err =>
    rw [Probing.step] at h
    split at h
    · cases h
      exact .ended err ‹_›
    · cases h
  | main => exact mainStep_probe_move h
  | stop => exact stopStep_probeMove h
  | probe k world => exact probeStep_probeMove h
  | prober k => exact proberStep_move h

end Inversion

/-! ### The invariant -/

/-- The thread has sent a token for the goroutine that it starts next. -/
def ProbePc.held : ProbePc → Nat
  | .spawning _ => 1
  | .checking _ | .jittering _ | .delaying _ | .acquiring _ | .waiting | .finishing | .returned .. => 0

/-- The loop is over. -/
def ProbePc.after : ProbePc → Bool
  | .waiting | .finishing | .returned .. => true
  | .checking _ | .jittering _ | .delaying _ | .acquiring _ | .spawning _ => false

/-- The wait is over. -/
def ProbePc.waited : ProbePc → Bool
  | .finishing | .returned .. => true
  | .checking _ | .jittering _ | .delaying _ | .acquiring _ | .spawning _ | .waiting => false

/-- The result at this index is one that `probeOne` gives for the job at this index. -/
def IsProbeOf {τ γ σ : Type} (d : Probing τ γ σ) (i : Nat) (c : RackSlotCandidate) : Prop :=
  ∃ job world, d.req.jobs[i]? = some job ∧ d.probe job world = some c

structure ProbeInv {τ γ σ : Type} (d : Probing τ γ σ) (s : ProbeState) : Prop where
  pool : s.pool.Inv d.req.parallelism.toNat d.req.jobs.length s.main.held {} (IsProbeOf d)
  few : s.pool.tasks.length ≤ d.req.maxJobs
  before : ∀ i, s.main.before = some i → s.pool.tasks.length = i
  inside : ∀ i, s.main.before = some i → s.main ≠ .checking i → i < d.req.maxJobs
  started : ∀ i, s.main = .spawning i → s.pool.tasks.length = i
  spawning : ∀ i, s.main = .spawning i → s.pool.tasks.length < d.req.maxJobs
  stopped : s.main.after = true → s.pool.tasks.length < d.req.maxJobs → s.ended = true
  canceled : s.canceled = true → ∃ i c, s.pool.Written i c ∧ d.req.stops c = true
  waited : s.main.waited = true → s.pool.allDone
  returned : ∀ out err, s.main = .returned out err → out = d.req.summary s.pool.results.vals ∧
    (s.pool.tasks.length < d.req.maxJobs → err ≠ none ∨ s.canceled = true) ∧ (err ≠ none → s.ctx = err)

theorem maxJobs_le (req : RackSlotProbeRequest) : req.maxJobs ≤ req.jobs.length := by
  unfold RackSlotProbeRequest.maxJobs
  split
  · omega
  · exact Nat.le_refl _

namespace ProbeInv
variable {τ γ σ : Type} {d : Probing τ γ σ} {s s' : ProbeState}

theorem start {env : ProbeJob → ProbeEnv τ γ σ} {req : RackSlotProbeRequest} {s : ProbeState}
    (h : probeRackSlots env req = .ok (d, s)) : ProbeInv d s := by
  obtain ⟨-, -, h⟩ := Outcome.bind_eq_ok.mp h
  cases h
  constructor
  · exact Pool.Inv.make _ _ _ _
  · exact Nat.zero_le _
  · rintro _ ⟨⟩
    rfl
  · rintro _ ⟨⟩ hne
    exact absurd rfl hne
  · rintro _ ⟨⟩
  · rintro _ ⟨⟩
  · rintro ⟨⟩
  · rintro ⟨⟩
  · rintro ⟨⟩
  · rintro _ _ ⟨⟩

/-- The thread goes on without touching the pool. -/
theorem advance (h : ProbeInv d s) {pc : ProbePc} (hheld : pc.held = s.main.held)
    (hbefore : ∀ i, pc.before = some i → s.pool.tasks.length = i ∧ i < d.req.maxJobs) (hspawning : ∀ i, pc ≠ .spawning i)
    (hafter : pc.after = true → s.pool.tasks.length < d.req.maxJobs → s.ended = true)
    (hwaited : pc.waited = true → s.pool.allDone)
    (hreturned : ∀ out err, pc = .returned out err → out = d.req.summary s.pool.results.vals ∧
      (s.pool.tasks.length < d.req.maxJobs → err ≠ none ∨ s.canceled = true) ∧ (err ≠ none → s.ctx = err)) :
    ProbeInv d { s with main := pc } :=
  { pool := by rw [hheld]; exact h.pool
    few := h.few
    before := fun i hi => (hbefore i hi).1
    inside := fun i hi _ => (hbefore i hi).2
    started := fun i hi => absurd hi (hspawning i)
    spawning := fun i hi => absurd hi (hspawning i)
    stopped := hafter
    canceled := h.canceled
    waited := hwaited
    returned := hreturned }

/-- A goroutine goes on. -/
theorem setPool (h : ProbeInv d s) {pool : Pool RackSlotCandidate} {canceled : Bool}
    (hpool : pool.Inv d.req.parallelism.toNat d.req.jobs.length s.main.held {} (IsProbeOf d))
    (hlen : pool.tasks.length = s.pool.tasks.length) (hkeep : ∀ i c, s.pool.Written i c → pool.Written i c)
    (hcanceled : s.canceled = true → canceled = true)
    (hstops : canceled = true → s.canceled = true ∨ ∃ i c, pool.Written i c ∧ d.req.stops c = true)
    (hrunning : ¬s.pool.allDone) :
    ProbeInv d { s with pool, canceled } := by
  have hnot : s.main.waited = false := Bool.eq_false_iff.mpr fun hwaited => hrunning (h.waited hwaited)
  exact
    { pool := hpool
      few := hlen.trans_le h.few
      before := fun i hi => hlen.trans (h.before i hi)
      inside := h.inside
      started := fun i hi => hlen.trans (h.started i hi)
      spawning := fun i hi => hlen ▸ h.spawning i hi
      stopped := fun hafter hlt => by
        have hended := h.stopped hafter (hlen ▸ hlt)
        simp only [ProbeState.ended, Bool.or_eq_true] at hended ⊢
        exact hended.imp_right hcanceled
      canceled := fun hc => (hstops hc).elim
        (fun hold => (h.canceled hold).imp fun i => Exists.imp fun c hw => ⟨hkeep i c hw.1, hw.2⟩) id
      waited := fun hwaited => absurd hwaited (by rw [hnot]; exact Bool.false_ne_true)
      returned := fun out err hmain => by
        rw [hmain] at hnot
        cases hnot }

theorem step (h : ProbeInv d s) (hmove : ProbeMove d s s') : ProbeInv d s' := by
  cases hmove with
  | ended err hctx =>
    exact { h with
      stopped := fun _ _ => rfl
      returned := fun out e hmain => by
        obtain ⟨hout, hstop, herr⟩ := h.returned out e hmain
        refine ⟨hout, hstop, fun hne => absurd (herr hne) ?_⟩
        rw [hctx]
        exact hne.symm }
  | @entered i hmain hi =>
    have hlen := h.before i (by rw [hmain]; rfl)
    refine h.advance (by rw [hmain]; rfl) ?_ nofun nofun nofun nofun
    rintro _ ⟨⟩
    exact ⟨hlen, hi⟩
  | @paused i pc hpause =>
    have hbefore : s.main.before = some i ∧ pc.before = some i ∧ s.main ≠ .checking i ∧ s.main.held = pc.held := by
      generalize s.main = old at hpause
      cases hpause <;> exact ⟨rfl, rfl, nofun, rfl⟩
    obtain ⟨hold, hnew, hne, hheld⟩ := hbefore
    refine h.advance hheld.symm ?_ ?_ ?_ ?_ ?_
    · intro j hj
      obtain rfl : i = j := Option.some.inj (hnew.symm.trans hj)
      exact ⟨h.before i hold, h.inside i hold hne⟩
    all_goals
      generalize s.main = old at hpause
      cases hpause <;> nofun
  | @stopped i hbefore hended =>
    have hheld : s.main.held = 0 := by
      generalize s.main = old at hbefore
      cases old <;> first | rfl | cases hbefore
    exact h.advance hheld.symm nofun nofun (fun _ _ => hended) nofun nofun
  | @allStarted i hmain hi =>
    have hlen := h.before i (by rw [hmain]; rfl)
    refine h.advance (by rw [hmain]; rfl) nofun nofun (fun _ hlt => ?_) nofun nofun
    omega
  | @acquired i pool hmain hpool =>
    have hlen := h.before i (by rw [hmain]; rfl)
    have hlt := h.inside i (by rw [hmain]; rfl) (by rw [hmain]; nofun)
    have hinv := h.pool
    rw [hmain] at hinv
    have hinv' := hinv.acquire (by have := maxJobs_le d.req; omega) hpool
    obtain ⟨-, rfl⟩ := Pool.acquire_eq_some.mp hpool
    exact
      { pool := hinv'
        few := h.few
        before := nofun
        inside := nofun
        started := by
          rintro _ ⟨⟩
          exact hlen
        spawning := fun _ _ => hlen.trans_lt hlt
        stopped := nofun
        canceled := h.canceled
        waited := nofun
        returned := nofun }
  | @spawned i hmain =>
    have hlt := h.spawning i hmain
    have hinv := h.pool
    rw [hmain] at hinv
    have hsucc : s.pool.spawn.tasks.length = s.pool.tasks.length + 1 := List.length_append
    exact
      { pool := hinv.spawn
        few := hsucc.trans_le hlt
        before := by
          rintro _ ⟨⟩
          exact hsucc.trans (congrArg (· + 1) (h.started i hmain))
        inside := by
          rintro _ ⟨⟩ hne
          exact absurd rfl hne
        started := nofun
        spawning := nofun
        stopped := nofun
        canceled := fun hc => (h.canceled hc).imp fun i => Exists.imp fun c hw => ⟨hw.1.spawn, hw.2⟩
        waited := nofun
        returned := nofun }
  | waited hmain hdone =>
    have hended := h.stopped (by rw [hmain]; rfl)
    exact h.advance (by rw [hmain]; rfl) nofun nofun (fun _ => hended) (fun _ => hdone) nofun
  | returned hmain =>
    have hended := h.stopped (by rw [hmain]; rfl)
    have hdone := h.waited (by rw [hmain]; rfl)
    refine h.advance (by rw [hmain]; rfl) nofun nofun (fun _ => hended) (fun _ => hdone) ?_
    rintro _ _ ⟨⟩
    refine ⟨rfl, fun hlt => ?_, fun _ => rfl⟩
    have := hended hlt
    simp only [ProbeState.ended, Bool.or_eq_true, Option.isSome_iff_ne_none] at this
    exact this
  | @probed k job world c pool hjob hprobe hpool =>
    have hinv := h.pool.finish ⟨job, world, hjob, hprobe⟩ hpool
    have hkeep := fun i c (hw : s.pool.Written i c) => hw.finish hpool
    obtain ⟨hk, rfl⟩ := Pool.finish_eq_some.mp hpool
    exact h.setPool hinv List.length_set hkeep id .inl (Pool.not_allDone hk nofun)
  | @wrote k pool hpool =>
    have hinv := h.pool.write hpool
    have hkeep := fun i c (hw : s.pool.Written i c) => hw.write h.pool hpool
    obtain ⟨b, hk, rfl⟩ := h.pool.write_eq_some hpool
    exact h.setPool hinv List.length_set hkeep id .inl (Pool.not_allDone hk nofun)
  | @left k c pool hpool =>
    have hinv := h.pool.leave hpool
    have hkeep := fun i c (hw : s.pool.Written i c) => hw.leave hpool
    obtain ⟨hk, rfl⟩ := Pool.leave_eq_some.mp hpool
    refine h.setPool hinv List.length_set hkeep (fun hc => by rw [hc]; rfl) (fun hc => ?_) (Pool.not_allDone hk nofun)
    exact (Bool.or_eq_true _ _ ▸ hc).imp_right fun hstops => ⟨k, c, hkeep k c (h.pool.written hk), hstops⟩
  | @released k pool hpool =>
    have hinv := h.pool.release hpool
    have hkeep := fun i c (hw : s.pool.Written i c) => hw.release hpool
    obtain ⟨hk, -, rfl⟩ := Pool.release_eq_some.mp hpool
    exact h.setPool hinv List.length_set hkeep id .inl (Pool.not_allDone hk nofun)

theorem of_run {s₀ : ProbeState} (h₀ : ProbeInv d s₀) {as : List (ProbeAction σ)} (hrun : Go.run d.step s₀ as = some s) :
    ProbeInv d s :=
  run_invariant (fun _ _ _ h hstep => h.step (step_probe_move hstep)) h₀ hrun

end ProbeInv

/-! ### The summary -/

section Summary
variable {τ γ σ : Type} {d : Probing τ γ σ} {i : Nat} {c : RackSlotCandidate}

theorem IsProbeOf.result (h : IsProbeOf d i c) :
    ∃ job, d.req.jobs[i]? = some job ∧ ResultOf d.req job.rack job.slot c := by
  obtain ⟨job, world, hjob, hprobe⟩ := h
  refine ⟨job, hjob, ?_⟩
  unfold Probing.probe at hprobe
  split at hprobe
  · rename_i hone
    cases hprobe
    exact probeOne_result (Prod.ext hone rfl)
  · cases hprobe

theorem Ladder.ne_flaky {strict : Bool} {stage : ProbeStage} {status : ProbeStatus} {confidence : Confidence}
    (h : Ladder strict stage status confidence) : status ≠ .flaky := by
  cases h <;> nofun

/-- Only a strict probe is confirmed by a query. -/
theorem Ladder.strict_of_validQuery {strict : Bool} {stage : ProbeStage} {confidence : Confidence}
    (h : Ladder strict stage .validQuery confidence) : strict = true := by
  cases h
  assumption

end Summary

/-- What the summary of a result says, of which the first `k` candidates were probed. -/
structure Honest (req : RackSlotProbeRequest) (k : Nat) (out : RackSlotProbeResult) : Prop where
  valid : out.valid = out.candidates.filter (·.valid req.strict)
  accepted : out.setupAccepted = out.candidates.countP (·.accepted)
  query : out.confirmedByQuery = out.candidates.countP (·.status == .validQuery)
  tcpOnly : out.tcpOnly = out.candidates.countP (·.status == .tcpOnly)
  stopped : (out.stoppedEarly = true ↔ req.maxJobs < req.jobs.length) ∧
    out.stoppedReason = if out.stoppedEarly then "max_attempts_reached" else ""
  lax : req.strict = false → out.valid.length = out.setupAccepted ∧ out.confirmedByQuery = 0
  confirmed : req.strict = true → out.valid.length = out.confirmedByQuery
  confirmed_le : out.confirmedByQuery ≤ out.setupAccepted
  probed : out.setupAccepted + out.tcpOnly ≤ k
  flaky : out.flaky = out.candidates.countP (·.status == .flaky) ∧ out.flaky = 0

theorem accepted_of_validQuery {c : RackSlotCandidate} (h : (c.status == .validQuery) = true) : c.accepted = true := by
  rw [RackSlotCandidate.accepted, h, Bool.or_true]

theorem countP_disjoint_le {α : Type} {p q : α → Bool} (h : ∀ a, p a = true → q a = false) (l : List α) :
    l.countP p + l.countP q ≤ l.length := by
  rw [List.length_eq_countP_add_countP p]
  refine Nat.add_le_add_left (List.countP_mono_left fun a _ hq => ?_) _
  cases hp : p a with
  | false => rfl
  | true => exact absurd ((h a hp).symm.trans hq) Bool.false_ne_true

/-- A count over the candidates that were probed. -/
theorem countP_take {p : RackSlotCandidate → Bool} (hp : p {} = false) {cs : List RackSlotCandidate} {k : Nat}
    (hzero : ∀ i c, cs[i]? = some c → k ≤ i → c = {}) : cs.countP p = (cs.take k).countP p := by
  have hdrop : (cs.drop k).countP p = 0 := by
    refine List.countP_eq_zero.mpr fun c hc => ?_
    obtain ⟨i, hi⟩ := List.mem_iff_getElem?.mp hc
    rw [List.getElem?_drop] at hi
    rw [hzero _ c hi (Nat.le_add_right k i), hp]
    exact Bool.false_ne_true
  conv_lhs => rw [← List.take_append_drop k cs]
  rw [List.countP_append, hdrop, Nat.add_zero]

/-- A status that neither a probe nor a zero entry has is not counted. -/
theorem countP_status_eq_zero {req : RackSlotProbeRequest} {status : ProbeStatus} {cs : List RackSlotCandidate}
    (hcases : ∀ c ∈ cs, c = {} ∨ ∃ rack slot, ResultOf req rack slot c) (hunset : status ≠ .unset)
    (hne : ∀ rack slot c, ResultOf req rack slot c → c.status ≠ status) : cs.countP (·.status == status) = 0 := by
  refine List.countP_eq_zero.mpr fun c hc hstatus => ?_
  rcases hcases c hc with rfl | ⟨rack, slot, hresult⟩
  · exact hunset (beq_iff_eq.mp hstatus).symm
  · exact hne rack slot c hresult (beq_iff_eq.mp hstatus)

theorem honest_summary {req : RackSlotProbeRequest} {k : Nat} {cs : List RackSlotCandidate}
    (hprobed : ∀ i c, cs[i]? = some c → i < k → ∃ rack slot, ResultOf req rack slot c)
    (hzero : ∀ i c, cs[i]? = some c → k ≤ i → c = {}) : Honest req k (req.summary cs) := by
  have hcases : ∀ c ∈ cs, c = {} ∨ ∃ rack slot, ResultOf req rack slot c := by
    intro c hc
    obtain ⟨i, hi⟩ := List.mem_iff_getElem?.mp hc
    rcases Nat.lt_or_ge i k with hlt | hge
    · exact .inr (hprobed i c hi hlt)
    · exact .inl (hzero i c hi hge)
  have hreason : (req.summary cs).stoppedReason =
      if (req.summary cs).stoppedEarly then "max_attempts_reached" else "" := by
    simp [RackSlotProbeRequest.summary]
  refine ⟨rfl, rfl, rfl, rfl, ⟨decide_eq_true_iff, hreason⟩, ?_, ?_, ?_, ?_, rfl, ?_⟩
  · intro hstrict
    refine ⟨?_, countP_status_eq_zero hcases (by decide) fun rack slot c hresult hquery => ?_⟩
    · show (cs.filter (·.valid req.strict)).length = cs.countP (·.accepted)
      rw [hstrict]
      exact List.countP_eq_length_filter.symm
    · have hladder := hresult.ladder
      rw [hquery] at hladder
      exact absurd (hladder.strict_of_validQuery.symm.trans hstrict) nofun
  · intro hstrict
    show (cs.filter (·.valid req.strict)).length = cs.countP (·.status == .validQuery)
    rw [hstrict]
    exact List.countP_eq_length_filter.symm
  · exact List.countP_mono_left fun c _ => accepted_of_validQuery
  · show cs.countP (·.accepted) + cs.countP (·.status == .tcpOnly) ≤ k
    rw [countP_take rfl hzero, countP_take rfl hzero]
    refine (countP_disjoint_le (fun c hc => ?_) _).trans (List.length_take_le k cs)
    cases hstatus : c.status <;> simp_all [RackSlotCandidate.accepted]
  · exact countP_status_eq_zero hcases (by decide) fun rack slot c hresult => hresult.ladder.ne_flaky

/-- What `ProbeRackSlots` returns, whatever the order of its threads. There is an entry for each job. The jobs up to one
    were probed, each once, and their entries are the results for their racks and slots; the other entries are zero.
    If jobs were left out that the request allows, there is an error, which is that of the context of the call, or one of
    the results is valid and the request stops on it. The summary counts what the entries say, and says whether the
    request allows fewer jobs than there are. -/
theorem probe_results {τ γ σ : Type} {env : ProbeJob → ProbeEnv τ γ σ} {req : RackSlotProbeRequest}
    {d : Probing τ γ σ} {s₀ s : ProbeState} (hcall : probeRackSlots env req = .ok (d, s₀)) {as : List (ProbeAction σ)}
    (hrun : Go.run d.step s₀ as = some s) {out : RackSlotProbeResult} {err : Option GoError}
    (hmain : s.main = .returned out err) :
    ∃ k ≤ d.req.maxJobs, out.candidates.length = d.req.jobs.length ∧
      (∀ i c, out.candidates[i]? = some c → (i < k ∧ IsProbeOf d i c) ∨ (k ≤ i ∧ c = {})) ∧
      (∀ i, s.pool.results.writes.count i = if i < k then 1 else 0) ∧
      (k < d.req.maxJobs → err ≠ none ∨ ∃ i c, i < k ∧ out.candidates[i]? = some c ∧ d.req.stops c = true) ∧
      (err ≠ none → s.ctx = err) ∧ Honest d.req k out := by
  have hinv := (ProbeInv.start hcall).of_run hrun
  have hdone : s.pool.allDone := hinv.waited (by rw [hmain]; rfl)
  obtain ⟨rfl, hstop, herr⟩ := hinv.returned out err hmain
  have hentries := fun i c (hi : s.pool.results.vals[i]? = some c) => hinv.pool.entries hdone hi
  refine ⟨s.pool.tasks.length, hinv.few, hinv.pool.sized, hentries, hinv.pool.writes_eq hdone, fun hlt => ?_, herr, ?_⟩
  · refine (hstop hlt).imp_right fun hcanceled => ?_
    obtain ⟨i, c, hwritten, hstops⟩ := hinv.canceled hcanceled
    exact ⟨i, c, hwritten.lt, hwritten.2, hstops⟩
  · refine honest_summary (fun i c hi hlt => ?_) fun i c hi hge => ?_
    · rcases hentries i c hi with ⟨-, hprobe⟩ | ⟨hge, -⟩
      · obtain ⟨job, -, hresult⟩ := hprobe.result
        exact ⟨_, _, hresult⟩
      · omega
    · rcases hentries i c hi with ⟨hlt, -⟩ | ⟨-, hzero⟩
      · omega
      · exact hzero

/-- A request for three slots that stops on the first valid one. -/
def stopRequest : RackSlotProbeRequest := { address := "10.0.0.1", slotMax := 2, stopOnFirst := true }

def stopCall : Probing Nat Nat Nat := ⟨fun _ => oneConnection, applyProbeDefaults stopRequest⟩

theorem probeRackSlots_stop : probeRackSlots (fun _ => oneConnection) stopRequest =
    .ok (stopCall, { main := .checking 0, pool := Pool.make {} 3 }) := by
  have hvalid : validateRackSlotProbeRequest (applyProbeDefaults stopRequest) = .ok () := by decide
  rw [probeRackSlots, hvalid]
  rfl

/-- The first probe is valid, and its end is what the loop sees next. -/
def stopActions : List (ProbeAction Nat) :=
  [.main, .main, .main, .main, .main, .probe 0 0, .prober 0, .prober 0, .main, .prober 0, .main, .main]

/-- The result of the first probe. -/
def stopCandidate : RackSlotCandidate where
  localTSAP := 0x0100
  remoteTSAP := 0x0300
  stage := .setup
  status := .setupOnly
  pduSize := 240
  confidence := .low

def stopState : ProbeState where
  canceled := true
  main := .returned (stopCall.req.summary [stopCandidate, {}, {}]) none
  pool := ⟨0, [.done], ⟨[stopCandidate, {}, {}], [0]⟩, false⟩

theorem run_stop : Go.run stopCall.step { main := .checking 0, pool := Pool.make {} 3 } stopActions = some stopState := by
  decide +kernel

theorem probe_results_stop : ∃ k ≤ 3, Honest stopCall.req k (stopCall.req.summary [stopCandidate, {}, {}]) ∧
    ∃ i c, i < k ∧ [stopCandidate, {}, {}][i]? = some c ∧ stopCall.req.stops c = true := by
  obtain ⟨k, hk, -, hentries, -, hstop, -, hhonest⟩ := probe_results probeRackSlots_stop run_stop rfl
  have hlt : k < 3 := by
    refine Nat.lt_of_not_le fun hge => ?_
    rcases hentries 1 {} rfl with ⟨-, hprobe⟩ | ⟨hle, -⟩
    · obtain ⟨job, -, hresult⟩ := hprobe.result
      cases hresult.ladder
    · omega
  refine ⟨k, hk, hhonest, ?_⟩
  exact (hstop hlt).resolve_left fun hne => hne rfl

/-! ### Progress -/

/-- The steps that the thread has still to take, with those of the goroutines that it has still to start. -/
def ProbePc.stepsLeft (n : Nat) : ProbePc → Nat
  | .checking i => 9 * (n - i) + 3
  | .jittering i => 9 * (n - i) + 2
  | .delaying i => 9 * (n - i) + 1
  | .acquiring i => 9 * (n - i)
  | .spawning i => 9 * (n - i) - 1
  | .waiting => 2
  | .finishing => 1
  | .returned .. => 0

def ProbeState.stepsLeft (n : Nat) (s : ProbeState) : Nat :=
  (if s.ctx = none then 1 else 0) + s.main.stepsLeft n + s.pool.stepsLeft

namespace ProbeInv
variable {τ γ σ : Type} {d : Probing τ γ σ} {s s' : ProbeState}

/-- Every step brings the call nearer to its end. -/
theorem stepsLeft_lt (h : ProbeInv d s) (hmove : ProbeMove d s s') :
    s'.stepsLeft d.req.maxJobs < s.stepsLeft d.req.maxJobs := by
  have hpool : ∀ {pool : Pool RackSlotCandidate} {canceled : Bool}, pool.stepsLeft < s.pool.stepsLeft →
      ProbeState.stepsLeft d.req.maxJobs { s with pool, canceled } < s.stepsLeft d.req.maxJobs := fun hlt =>
    Nat.add_lt_add_left hlt _
  have hmain : ∀ {pc : ProbePc}, pc.stepsLeft d.req.maxJobs < s.main.stepsLeft d.req.maxJobs →
      ProbeState.stepsLeft d.req.maxJobs { s with main := pc } < s.stepsLeft d.req.maxJobs := fun hlt =>
    Nat.add_lt_add_right (Nat.add_lt_add_left hlt _) _
  cases hmove with
  | ended err hctx =>
    refine Nat.add_lt_add_right (Nat.add_lt_add_right ?_ _) _
    rw [if_neg (Option.some_ne_none err), if_pos hctx]
    exact Nat.one_pos
  | entered hpc hi =>
    refine hmain ?_
    rw [hpc]
    exact Nat.lt_succ_self _
  | paused hpause =>
    refine hmain ?_
    generalize s.main = old at hpause
    cases hpause <;> exact Nat.lt_succ_self _
  | @stopped i hbefore hended =>
    refine hmain ?_
    have hinside := h.inside i hbefore
    generalize s.main = old at hbefore hinside
    cases old <;> cases hbefore <;> simp [ProbePc.stepsLeft] at hinside ⊢ <;> omega
  | allStarted hpc hi =>
    refine hmain ?_
    rw [hpc]
    simp only [ProbePc.stepsLeft]
    omega
  | @acquired i pool hpc hpool' =>
    have hlt := h.inside i (by rw [hpc]; rfl) (by rw [hpc]; nofun)
    obtain ⟨-, rfl⟩ := Pool.acquire_eq_some.mp hpool'
    refine Nat.add_lt_add_right (Nat.add_lt_add_left ?_ _) _
    rw [hpc]
    simp only [ProbePc.stepsLeft]
    omega
  | @spawned i hpc =>
    have hlen := h.started i hpc
    have hlt := h.spawning i hpc
    have hspawn := Pool.stepsLeft_spawn (p := s.pool)
    simp only [ProbeState.stepsLeft, hspawn, hpc, ProbePc.stepsLeft]
    omega
  | waited hpc =>
    refine hmain ?_
    rw [hpc]
    exact Nat.lt_succ_self 1
  | returned hpc =>
    refine hmain ?_
    rw [hpc]
    exact Nat.one_pos
  | probed _ _ hp => exact hpool (Pool.stepsLeft_finish hp)
  | wrote hp => exact hpool (h.pool.stepsLeft_write hp)
  | left hp => exact hpool (Pool.stepsLeft_leave hp)
  | released hp => exact hpool (Pool.stepsLeft_release hp)

/-- A goroutine that has not ended can go on, if its probe can end. -/
theorem prober_goes_on (h : ProbeInv d s) (hends : ∀ job ∈ d.req.jobs, ∃ world c, d.probe job world = some c) {k : Nat}
    {pc : TaskPc RackSlotCandidate} (hk : s.pool.tasks[k]? = some pc) (hpc : pc ≠ .done) :
    (∃ world s', d.step s (.probe k world) = some s') ∨ ∃ s', d.step s (.prober k) = some s' := by
  rcases h.pool.goes_on hk hpc with rfl | ⟨pool, hpool⟩ | ⟨c, pool, hpool⟩ | ⟨pool, hpool⟩
  · have hlt := h.pool.lt_of_task hk
    obtain ⟨world, c, hc⟩ := hends _ (List.getElem_mem hlt)
    refine .inl ⟨world, { s with pool := { s.pool with tasks := s.pool.tasks.set k (.writing c) } }, ?_⟩
    have hfinish : s.pool.finish k c = _ := Pool.finish_eq_some.mpr ⟨hk, rfl⟩
    simp only [Probing.step, Probing.probeStep, List.getElem?_eq_getElem hlt, hc, hfinish, Option.bind_eq_bind,
      Option.bind_some]
  · obtain ⟨a, hwriting⟩ := Pool.writing_of_write hpool
    refine .inr ⟨{ s with pool }, ?_⟩
    rw [Probing.step, Probing.proberStep, hwriting]
    exact Option.map_eq_some_iff.mpr ⟨pool, hpool, rfl⟩
  · have hwrote := (Pool.leave_eq_some.mp hpool).1
    refine .inr ⟨{ s with pool, canceled := s.canceled || d.req.stops c }, ?_⟩
    rw [Probing.step, Probing.proberStep, hwrote]
    exact Option.map_eq_some_iff.mpr ⟨(c, pool), hpool, rfl⟩
  · have hreleasing := (Pool.release_eq_some.mp hpool).1
    refine .inr ⟨{ s with pool }, ?_⟩
    rw [Probing.step, Probing.proberStep, hreleasing]
    exact Option.map_eq_some_iff.mpr ⟨pool, hpool, rfl⟩

/-- A call that has not returned can go on. -/
theorem goes_on (h : ProbeInv d s) (hpar : 0 < d.req.parallelism)
    (hends : ∀ job ∈ d.req.jobs, ∃ world c, d.probe job world = some c) (hmain : ∀ out err, s.main ≠ .returned out err) :
    ∃ a s', (∀ err, a ≠ .endCtx err) ∧ d.step s a = some s' := by
  have hprober : ∀ {k : Nat} {pc : TaskPc RackSlotCandidate}, s.pool.tasks[k]? = some pc → pc ≠ .done →
      ∃ a s', (∀ err, a ≠ .endCtx err) ∧ d.step s a = some s' := by
    intro k pc hk hpc
    rcases h.prober_goes_on hends hk hpc with ⟨world, s', hs'⟩ | ⟨s', hs'⟩
    · exact ⟨.probe k world, s', nofun, hs'⟩
    · exact ⟨.prober k, s', nofun, hs'⟩
  have hstep : ∀ {s'}, d.mainStep s = some s' → ∃ a s', (∀ err, a ≠ .endCtx err) ∧ d.step s a = some s' := fun hs' =>
    ⟨.main, _, nofun, hs'⟩
  cases hpc : s.main with
  | checking i =>
    by_cases hi : i < d.req.maxJobs
    · by_cases hended : s.ended = true
      · exact hstep (by rw [Probing.mainStep, hpc]; exact (if_pos hi).trans (if_pos hended))
      · exact hstep (by rw [Probing.mainStep, hpc]; exact (if_pos hi).trans (if_neg hended))
    · exact hstep (by rw [Probing.mainStep, hpc]; exact if_neg hi)
  | jittering i => exact hstep (by rw [Probing.mainStep, hpc])
  | delaying i => exact hstep (by rw [Probing.mainStep, hpc])
  | acquiring i =>
    by_cases hsem : s.pool.sem < d.req.parallelism.toNat
    · obtain ⟨pool, hpool⟩ : ∃ pool, s.pool.acquire d.req.parallelism.toNat = some pool :=
        ⟨_, Pool.acquire_eq_some.mpr ⟨hsem, rfl⟩⟩
      have hmove : d.mainStep s = some { s with main := .spawning i, pool } := by
        rw [Probing.mainStep, hpc]
        exact congrArg (Option.map _) hpool
      exact hstep hmove
    · have hinv := h.pool
      rw [hpc] at hinv
      obtain ⟨k, pc, hk, hne⟩ := hinv.exists_running (by omega) (Nat.le_of_not_lt hsem)
      exact hprober hk hne
  | spawning i => exact hstep (by rw [Probing.mainStep, hpc])
  | waiting =>
    by_cases hdone : s.pool.allDone
    · exact hstep (by rw [Probing.mainStep, hpc]; exact if_pos hdone)
    · simp only [Pool.allDone, not_forall] at hdone
      obtain ⟨pc, hmem, hne⟩ := hdone
      obtain ⟨k, hk⟩ := List.mem_iff_getElem?.mp hmem
      exact hprober hk hne
  | finishing => exact hstep (by rw [Probing.mainStep, hpc])
  | returned out err => exact absurd hpc (hmain out err)

end ProbeInv

/-- The defaults leave room for a goroutine. -/
theorem parallelism_defaults (req : RackSlotProbeRequest) : 0 < (applyProbeDefaults req).parallelism := by
  have hmode : ∀ mode : SafetyMode, 0 < mode.probeParallelism := by
    intro mode
    cases mode <;> simp [SafetyMode.probeParallelism]
  unfold applyProbeDefaults
  dsimp only
  split
  · exact hmode _
  · omega

/-- A call of `ProbeRackSlots` never hangs. At any time no more probes run than the request allows, and no index is out
    of range; the call takes at most nine steps for each job, and four more; and until it has returned, one of its
    threads can go on, if the probes that run come to an end. -/
theorem probe_progress {τ γ σ : Type} {env : ProbeJob → ProbeEnv τ γ σ} {req : RackSlotProbeRequest}
    {d : Probing τ γ σ} {s₀ s : ProbeState} (hcall : probeRackSlots env req = .ok (d, s₀)) {as : List (ProbeAction σ)}
    (hrun : Go.run d.step s₀ as = some s) :
    s.pool.tasks.countP (·.holdsToken) ≤ d.req.parallelism ∧ s.pool.panicked = false ∧
      as.length ≤ 9 * d.req.maxJobs + 4 ∧
      ((∀ job ∈ d.req.jobs, ∃ world c, d.probe job world = some c) → (∀ out err, s.main ≠ .returned out err) →
        ∃ a s', (∀ err, a ≠ .endCtx err) ∧ d.step s a = some s') := by
  have hstart := ProbeInv.start hcall
  have hinv := hstart.of_run hrun
  have hpar : 0 < d.req.parallelism := by
    obtain ⟨-, -, hcall⟩ := Outcome.bind_eq_ok.mp hcall
    cases hcall
    exact parallelism_defaults req
  refine ⟨?_, hinv.pool.calm, ?_, fun hends hmain => hinv.goes_on hpar hends hmain⟩
  · have hle := hinv.pool.running_le
    omega
  · have hle := run_length_le (P := ProbeInv d) (μ := ProbeState.stepsLeft d.req.maxJobs)
      (fun _ _ _ h hstep => ⟨h.step (step_probe_move hstep), h.stepsLeft_lt (step_probe_move hstep)⟩) hstart hrun
    have hleft : s₀.stepsLeft d.req.maxJobs = 9 * d.req.maxJobs + 4 := by
      obtain ⟨-, -, hcall⟩ := Outcome.bind_eq_ok.mp hcall
      cases hcall
      show 1 + (9 * (_ - 0) + 3) + 0 = 9 * _ + 4
      omega
    omega

theorem probe_progress_stop :
    stopActions.length ≤ 9 * stopCall.req.maxJobs + 4 ∧
      (stopState.pool.tasks.countP (·.holdsToken) : Int) ≤ stopCall.req.parallelism :=
  have h := probe_progress probeRackSlots_stop run_stop
  ⟨h.2.2.1, h.1⟩

end S7Comm
