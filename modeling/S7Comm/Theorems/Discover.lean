import S7Comm.Client.Discover
import S7Comm.Theorems.CIDR

/-! Discovery over all interleavings. An index moves from the producer over `jobs`, a worker and `out` into the results;
    it is never in two places, and while the context has not ended it is never lost. -/

namespace S7Comm
open Go

/-! ### Moves -/

section Moves
variable {γ σ : Type} (d : Discovery γ σ) (s : DiscoverState)

/-- What an action can do. -/
inductive DiscoverMove : DiscoverState → Prop
  | ended (err : GoError) : s.ctx = none → DiscoverMove { s with ctx := some err }
  | counted {ip rest count} : s.main = .counting (ip :: rest) count →
      DiscoverMove { s with main := .counting rest (count + 1) }
  | canceled {rest count err} : s.main = .counting rest count → s.ctx = some err →
      DiscoverMove { s with main := .returned none (some err) }
  | allCounted {count} : s.main = .counting [] count → DiscoverMove { s with main := .making count }
  | noHosts : s.main = .making 0 → DiscoverMove { s with main := .returned (some []) none }
  | made {count} : s.main = .making count →
      DiscoverMove { s with main := .spawning, results := Slots.make {} count }
  | spawned : s.main = .spawning → DiscoverMove { s with workers := s.workers ++ [.receiving] }
  | allSpawned : s.main = .spawning → s.workers ≠ [] → DiscoverMove { s with main := .startingProducer }
  | startedProducer : s.main = .startingProducer →
      DiscoverMove { s with main := .startingWaiter, producer := .streaming d.hosts }
  | startedWaiter : s.main = .startingWaiter → DiscoverMove { s with main := .collecting, waiter := .waiting }
  | collected {i r out results} : s.main = .collecting → s.out = (i, r) :: out → s.results.write i r = some results →
      DiscoverMove { s with out, results }
  | outEnded : s.main = .collecting → s.out = [] → s.waiter = .done → DiscoverMove { s with main := .checking }
  | returned : s.main = .checking → DiscoverMove { s with main := .returned (some s.results.vals) s.ctx }
  | panicked : DiscoverMove { s with main := .panicked }
  | produced {ip rest} : s.producer = .streaming (ip :: rest) →
      DiscoverMove { s with producer := .streaming rest, jobs := s.jobs ++ [⟨s.idx, ip⟩], idx := s.idx + 1 }
  | streamEnded : s.producer = .streaming [] → DiscoverMove { s with producer := .closing }
  | stopped {rest err} : s.producer = .streaming rest → s.ctx = some err → DiscoverMove { s with producer := .closing }
  | jobsClosed : s.producer = .closing → DiscoverMove { s with producer := .done }
  | joined : s.waiter = .waiting → (∀ pc ∈ s.workers, pc = .done) → DiscoverMove { s with waiter := .closing }
  | outClosed : s.waiter = .closing → DiscoverMove { s with waiter := .done }
  | received {w j jobs} : s.workers[w]? = some .receiving → s.jobs = j :: jobs →
      DiscoverMove { s.setWorker w (.probing j) with jobs }
  | drained {w} : s.workers[w]? = some .receiving → s.jobs = [] → s.producer = .done →
      DiscoverMove (s.setWorker w .done)
  | probed {w j fuel world r} : s.workers[w]? = some (.probing j) → d.probe j.ip fuel world = some r →
      DiscoverMove { s.setWorker w (.sending j r) with probes := (j, r) :: s.probes }
  | sent {w j r} : s.workers[w]? = some (.sending j r) →
      DiscoverMove { s.setWorker w .receiving with out := s.out ++ [(j.i, r)] }
  | left {w j r err} : s.workers[w]? = some (.sending j r) → s.ctx = some err → DiscoverMove (s.setWorker w .done)

end Moves

section Inversion
variable {γ σ : Type} {d : Discovery γ σ} {s s' : DiscoverState}

theorem parallel_pos (d : Discovery γ σ) : 0 < d.parallel.toInt := by
  unfold Discovery.parallel
  split
  · decide
  · rename_i h
    rw [Int64.lt_iff_toInt_lt] at h
    have hone : (1 : Int64).toInt = 1 := by decide
    omega

theorem mainStep_move (h : d.mainStep s = some s') : DiscoverMove d s s' := by
  unfold Discovery.mainStep at h
  split at h
  · rename_i hmain
    split at h
    · rename_i hctx
      cases h
      exact .canceled hmain hctx
    · cases h
      exact .counted hmain
  · cases h
    exact .allCounted ‹_›
  · rename_i count hmain
    split at h
    · rename_i hzero
      cases h
      exact .noHosts (hzero ▸ hmain)
    · split at h
      · cases h
        exact .panicked
      · cases h
        exact .made hmain
  · split at h
    · cases h
      exact .spawned ‹_›
    · rename_i hmain hall
      cases h
      refine .allSpawned hmain fun hnil => hall ?_
      rw [hnil]
      exact parallel_pos d
  · cases h
    exact .startedProducer ‹_›
  · cases h
    exact .startedWaiter ‹_›
  · rename_i hmain
    split at h
    · rename_i hout
      split at h
      · rename_i hwrite
        cases h
        exact .collected hmain hout hwrite
      · cases h
        exact .panicked
    · rename_i hout
      split at h
      · cases h
        exact .outEnded hmain hout ‹_›
      · cases h
  · cases h
    exact .returned ‹_›
  · cases h
  · cases h

theorem produceStep_move (h : d.produceStep s = some s') : DiscoverMove d s s' := by
  unfold Discovery.produceStep at h
  split at h
  · split at h
    · cases h
      exact .produced ‹_›
    · cases h
  · cases h
    exact .streamEnded ‹_›
  · cases h
    exact .jobsClosed ‹_›
  · cases h
  · cases h

theorem stopStep_move (h : s.stopStep = some s') : DiscoverMove d s s' := by
  unfold DiscoverState.stopStep at h
  split at h
  · cases h
    exact .stopped ‹_› ‹_›
  · cases h

theorem waitStep_move (h : s.waitStep = some s') : DiscoverMove d s s' := by
  unfold DiscoverState.waitStep at h
  split at h
  · split at h
    · rename_i hwait hall
      cases h
      exact .joined hwait (by simpa using hall)
    · cases h
  · cases h
    exact .outClosed ‹_›
  · cases h
  · cases h

theorem receiveStep_move {w : Nat} (h : s.receiveStep w = some s') : DiscoverMove d s s' := by
  unfold DiscoverState.receiveStep at h
  split at h
  · cases h
    exact .received ‹_› ‹_›
  · split at h
    · cases h
      exact .drained ‹_› ‹_› ‹_›
    · cases h
  · cases h

theorem sendStep_move {w : Nat} (h : s.sendStep w = some s') : DiscoverMove d s s' := by
  unfold DiscoverState.sendStep at h
  split at h
  · split at h
    · cases h
      exact .panicked
    · split at h
      · cases h
        exact .sent ‹_›
      · cases h
  · cases h

theorem leaveStep_move {w : Nat} (h : s.leaveStep w = some s') : DiscoverMove d s s' := by
  unfold DiscoverState.leaveStep at h
  split at h
  · cases h
    exact .left ‹_› ‹_›
  · cases h

theorem probeStep_move {w fuel : Nat} {world : σ} (h : d.probeStep s w fuel world = some s') : DiscoverMove d s s' := by
  unfold Discovery.probeStep at h
  split at h
  · obtain ⟨r, hr, rfl⟩ := Option.map_eq_some_iff.mp h
    exact .probed ‹_› hr
  · cases h

theorem discoverStep_move {a : DiscoverAction σ} (h : discoverStep d s a = some s') : DiscoverMove d s s' := by
  cases a with
  | endCtx err =>
    rw [discoverStep] at h
    split at h
    · cases h
      exact .ended err ‹_›
    · cases h
  | main => exact mainStep_move h
  | produce => exact produceStep_move h
  | stopProducing => exact stopStep_move h
  | wait => exact waitStep_move h
  | receive w => exact receiveStep_move h
  | probe w fuel world => exact probeStep_move h
  | send w => exact sendStep_move h
  | leave w => exact leaveStep_move h

end Inversion

/-! ### Control -/

/-- How far a call of `Discover` is. -/
def DiscoverPc.stage : DiscoverPc → Nat
  | .counting .. | .making _ => 0
  | .spawning => 1
  | .startingProducer => 2
  | .startingWaiter => 3
  | .collecting => 4
  | .checking => 5
  | .returned .. | .panicked => 6

theorem DiscoverPc.stage_le (pc : DiscoverPc) : pc.stage ≤ 6 := by
  cases pc <;> simp [stage]

/-- What the threads know of each other. -/
structure ControlInv {γ σ : Type} (d : Discovery γ σ) (s : DiscoverState) : Prop where
  counting : ∀ rest count, s.main = .counting rest count → count + rest.length = d.hosts.length
  making : ∀ count, s.main = .making count → count = d.hosts.length
  empty : s.main.stage = 0 → s.results = { vals := [] }
  sized : 1 ≤ s.main.stage → s.main.stage ≤ 5 → s.results.vals.length = d.hosts.length
  idle : s.main.stage ≤ 2 → s.producer = .idle
  unwaited : s.main.stage ≤ 3 → s.waiter = .idle
  spawned : 2 ≤ s.main.stage → s.main.stage ≤ 5 → s.workers ≠ []
  closed : s.main = .checking → s.waiter = .done ∧ s.out = []
  fresh : s.producer = .idle → s.idx = 0
  streaming : ∀ rest, s.producer = .streaming rest → rest = d.hosts.drop s.idx
  streamed : s.ctx = none → s.producer = .closing ∨ s.producer = .done → d.hosts.length ≤ s.idx
  waited : s.waiter ≠ .idle → s.workers ≠ []
  joined : s.waiter = .closing ∨ s.waiter = .done → ∀ pc ∈ s.workers, pc = .done
  drained : s.ctx = none → .done ∈ s.workers → s.producer = .done ∧ s.jobs = []

namespace ControlInv
variable {γ σ : Type} {d : Discovery γ σ} {s s' : DiscoverState}

theorem start (d : Discovery γ σ) : ControlInv d d.start where
  counting := by
    rintro rest count ⟨⟩
    exact Nat.zero_add _
  making := nofun
  empty _ := rfl
  sized h := absurd h (Nat.not_succ_le_zero 0)
  idle _ := rfl
  unwaited _ := rfl
  spawned h := absurd h (Nat.not_succ_le_zero 1)
  closed := nofun
  fresh _ := rfl
  streaming := nofun
  streamed := by
    rintro - (h | h) <;> cases h
  waited h := absurd rfl h
  joined := by
    rintro (h | h) <;> cases h
  drained := nofun

/-- `Discover` goes on, and no other thread notices it. -/
theorem advance (h : ControlInv d s) (pc : DiscoverPc) (hstage : s.main.stage ≤ pc.stage)
    (hcounting : ∀ rest count, pc = .counting rest count → count + rest.length = d.hosts.length)
    (hmaking : ∀ count, pc = .making count → count = d.hosts.length)
    (hsized : 1 ≤ pc.stage → pc.stage ≤ 5 → s.results.vals.length = d.hosts.length)
    (hspawned : 2 ≤ pc.stage → pc.stage ≤ 5 → s.workers ≠ [])
    (hclosed : pc = .checking → s.waiter = .done ∧ s.out = []) : ControlInv d { s with main := pc } :=
  { h with
    counting := hcounting
    making := hmaking
    empty := fun hpc => h.empty (Nat.le_zero.mp (hpc ▸ hstage))
    sized := hsized
    idle := fun hpc => h.idle (hstage.trans hpc)
    unwaited := fun hpc => h.unwaited (hstage.trans hpc)
    spawned := hspawned
    closed := hclosed }

/-- `Discover` ends. -/
theorem finish (h : ControlInv d s) {pc : DiscoverPc} (hpc : pc.stage = 6) : ControlInv d { s with main := pc } := by
  refine h.advance pc (hpc ▸ s.main.stage_le) ?_ ?_ (by omega) (by omega) ?_
  · rintro rest count rfl
    cases hpc
  · rintro count rfl
    cases hpc
  · rintro rfl
    cases hpc

/-- `Discover` goes on to a later stage after its workers were started. -/
theorem proceed (h : ControlInv d s) {pc : DiscoverPc} (hmain : s.main = pc) (hlo : 2 ≤ pc.stage) (pc' : DiscoverPc)
    (hstage : pc.stage ≤ pc'.stage) (hhi : pc'.stage ≤ 5)
    (hclosed : pc' = .checking → s.waiter = .done ∧ s.out = []) : ControlInv d { s with main := pc' } := by
  subst hmain
  have hsized := h.sized (Nat.le_of_succ_le hlo) (hstage.trans hhi)
  have hworkers := h.spawned hlo (hstage.trans hhi)
  refine h.advance pc' hstage ?_ ?_ (fun _ _ => hsized) (fun _ _ => hworkers) hclosed
  · rintro rest count rfl
    exact absurd (hlo.trans hstage) (Nat.not_succ_le_zero 1)
  · rintro count rfl
    exact absurd (hlo.trans hstage) (Nat.not_succ_le_zero 1)

/-- A worker goes on, and only ends if no job can follow or the context has ended. -/
theorem setWorker (h : ControlInv d s) {w : Nat} {pc : WorkerPc} (pc' : WorkerPc) (hw : s.workers[w]? = some pc)
    (hpc : pc ≠ .done) (hdone : s.ctx = none → pc' = .done → s.producer = .done ∧ s.jobs = []) :
    ControlInv d (s.setWorker w pc') :=
  { h with
    spawned := fun hlo hhi hnil => h.spawned hlo hhi (by simpa [DiscoverState.setWorker] using hnil)
    waited := fun hwait hnil => h.waited hwait (by simpa [DiscoverState.setWorker] using hnil)
    joined := fun hwait => absurd (h.joined hwait pc (List.mem_of_getElem? hw)) hpc
    drained := fun hctx hmem => by
      rcases List.mem_or_eq_of_mem_set hmem with hmem | hnew
      · exact h.drained hctx hmem
      · exact hdone hctx hnew.symm }

/-- The producer goes on; no worker has ended. -/
theorem setProducer (h : ControlInv d s) (hdone : s.producer ≠ .done) {pc : ProducerPc} {jobs : List Job} {idx : Nat}
    (hidle : s.main.stage ≤ 2 → pc = .idle) (hfresh : pc = .idle → idx = 0)
    (hstreaming : ∀ rest, pc = .streaming rest → rest = d.hosts.drop idx)
    (hstreamed : s.ctx = none → pc = .closing ∨ pc = .done → d.hosts.length ≤ idx) :
    ControlInv d { s with producer := pc, jobs, idx } :=
  { h with
    idle := hidle
    fresh := hfresh
    streaming := hstreaming
    streamed := hstreamed
    drained := fun hctx hmem => absurd (h.drained hctx hmem).1 hdone }

/-- The producer, once started and not yet done, goes on. -/
theorem produceOn (h : ControlInv d s) {pc : ProducerPc} (hproducer : s.producer = pc) (hidle : pc ≠ .idle)
    (hdone : pc ≠ .done) (pc' : ProducerPc) (hpc' : pc' ≠ .idle) {jobs : List Job} {idx : Nat}
    (hstreaming : ∀ rest, pc' = .streaming rest → rest = d.hosts.drop idx)
    (hstreamed : s.ctx = none → pc' = .closing ∨ pc' = .done → d.hosts.length ≤ idx) :
    ControlInv d { s with producer := pc', jobs, idx } := by
  subst hproducer
  exact h.setProducer hdone (fun hstage => absurd (h.idle hstage) hidle) (fun heq => absurd heq hpc') hstreaming hstreamed

theorem step (h : ControlInv d s) (hmove : DiscoverMove d s s') : ControlInv d s' := by
  cases hmove with
  | ended err hctx => exact { h with streamed := nofun, drained := nofun }
  | counted hmain =>
    refine h.advance _ (by rw [hmain]; exact Nat.le_refl 0) ?_ nofun (absurd · (Nat.not_succ_le_zero 0))
      (absurd · (Nat.not_succ_le_zero 1)) nofun
    rintro _ _ ⟨⟩
    have := h.counting _ _ hmain
    rw [List.length_cons] at this
    omega
  | canceled hmain hctx => exact h.finish rfl
  | allCounted hmain =>
    refine h.advance _ (by rw [hmain]; exact Nat.le_refl 0) nofun ?_ (absurd · (Nat.not_succ_le_zero 0))
      (absurd · (Nat.not_succ_le_zero 1)) nofun
    rintro _ ⟨⟩
    exact h.counting _ _ hmain
  | noHosts hmain => exact h.finish rfl
  | made hmain =>
    exact { h with
      counting := nofun
      making := nofun
      empty := nofun
      sized := fun _ _ => (List.length_replicate ..).trans (h.making _ hmain)
      idle := fun _ => h.idle (by rw [hmain]; exact Nat.zero_le 2)
      unwaited := fun _ => h.unwaited (by rw [hmain]; exact Nat.zero_le 3)
      spawned := (absurd · (Nat.not_succ_le_self 1))
      closed := nofun }
  | spawned hmain =>
    have hwaiter : s.waiter = .idle := h.unwaited (by rw [hmain]; decide)
    exact { h with
      spawned := fun _ _ => by simp
      waited := fun _ => by simp
      joined := fun hjoined => by
        rw [hwaiter] at hjoined
        rcases hjoined with hjoined | hjoined <;> cases hjoined
      drained := fun hctx hmem => h.drained hctx (by simpa using hmem) }
  | allSpawned hmain hworkers =>
    have hsized := h.sized (by rw [hmain]; decide) (by rw [hmain]; decide)
    exact h.advance _ (by rw [hmain]; decide) nofun nofun (fun _ _ => hsized) (fun _ _ => hworkers) nofun
  | startedProducer hmain =>
    have hproducer : s.producer = .idle := h.idle (by rw [hmain]; decide)
    have h' := h.proceed hmain (by decide) .startingWaiter (by decide) (by decide) nofun
    refine h'.setProducer (by rw [hproducer]; nofun) (absurd · (Nat.not_succ_le_self 2)) nofun ?_ ?_
    · rintro _ ⟨⟩
      rw [h.fresh hproducer]
      rfl
    · rintro - (hpc | hpc) <;> cases hpc
  | startedWaiter hmain =>
    have h' := h.proceed hmain (by decide) .collecting (by decide) (by decide) nofun
    exact { h' with
      unwaited := (absurd · (Nat.not_succ_le_self 3))
      closed := nofun
      waited := fun _ => h.spawned (by rw [hmain]; decide) (by rw [hmain]; decide)
      joined := by rintro (hpc | hpc) <;> cases hpc }
  | collected hmain hout hwrite =>
    obtain ⟨-, rfl⟩ := Slots.write_eq_some.mp hwrite
    exact { h with
      empty := fun hstage => by
        rw [hmain] at hstage
        cases hstage
      sized := fun hlo hhi => (List.length_set ..).trans (h.sized hlo hhi)
      closed := fun hchecking => by cases hmain.symm.trans hchecking }
  | outEnded hmain hout hwaiter =>
    exact h.proceed hmain (by decide) .checking (by decide) (by decide) fun _ => ⟨hwaiter, hout⟩
  | returned hmain => exact h.finish rfl
  | panicked => exact h.finish rfl
  | produced hproducer =>
    refine h.produceOn hproducer nofun nofun (.streaming _) nofun ?_ ?_
    · rintro _ ⟨⟩
      rw [← List.tail_drop, ← h.streaming _ hproducer]
      rfl
    · rintro - (hpc | hpc) <;> cases hpc
  | streamEnded hproducer =>
    refine h.produceOn hproducer nofun nofun .closing nofun nofun fun _ _ => ?_
    exact List.drop_eq_nil_iff.mp (h.streaming _ hproducer).symm
  | stopped hproducer hctx =>
    refine h.produceOn hproducer nofun nofun .closing nofun nofun fun hnone => ?_
    cases hctx.symm.trans hnone
  | jobsClosed hproducer =>
    refine h.produceOn hproducer nofun nofun .done nofun nofun fun hctx _ => ?_
    exact h.streamed hctx (.inl hproducer)
  | joined hwaiter hall =>
    exact { h with
      unwaited := fun hstage => by cases hwaiter.symm.trans (h.unwaited hstage)
      closed := fun hmain => by cases hwaiter.symm.trans (h.closed hmain).1
      waited := fun _ => h.waited (by rw [hwaiter]; nofun)
      joined := fun _ => hall }
  | outClosed hwaiter =>
    exact { h with
      unwaited := fun hstage => by cases hwaiter.symm.trans (h.unwaited hstage)
      closed := fun hmain => by cases hwaiter.symm.trans (h.closed hmain).1
      waited := fun _ => h.waited (by rw [hwaiter]; nofun)
      joined := fun _ => h.joined (.inl hwaiter) }
  | received hw hjobs =>
    exact { h.setWorker (.probing _) hw nofun nofun with
      drained := fun hctx hmem => by
        rcases List.mem_or_eq_of_mem_set hmem with hmem | hnew
        · cases hjobs.symm.trans (h.drained hctx hmem).2
        · cases hnew }
  | drained hw hjobs hproducer => exact h.setWorker .done hw nofun fun _ _ => ⟨hproducer, hjobs⟩
  | probed hw hr => exact { h.setWorker (.sending _ _) hw nofun nofun with }
  | sent hw =>
    exact { h.setWorker .receiving hw nofun nofun with
      closed := fun hmain => by cases h.joined (.inr (h.closed hmain).1) _ (List.mem_of_getElem? hw) }
  | left hw hctx => exact h.setWorker .done hw nofun fun hnone => by cases hctx.symm.trans hnone

end ControlInv

/-! ### Flow -/

/-- The worker has the job with this index, or its result. -/
def WorkerPc.holds (i : Nat) : WorkerPc → Bool
  | .probing j | .sending j _ => j.i == i
  | .receiving | .done => false

/-- The worker probes the host with this index. -/
def WorkerPc.probes (i : Nat) : WorkerPc → Bool
  | .probing j => j.i == i
  | .receiving | .sending .. | .done => false

namespace DiscoverState
variable (s : DiscoverState) (i : Nat)

/-- In how many places the index is, from the producer to the results. -/
def held : Nat :=
  s.jobs.countP (·.i == i) + s.workers.countP (·.holds i) + s.out.countP (·.1 == i) + s.results.writes.count i

/-- In how many places the index is, from the producer to the end of its probe. -/
def known : Nat :=
  s.jobs.countP (·.i == i) + s.workers.countP (·.probes i) + s.probes.countP (·.1.i == i)

variable {s} {w : Nat} {pc : WorkerPc}

theorem held_setWorker (hw : s.workers[w]? = some pc) (pc' : WorkerPc) :
    (s.setWorker w pc').held i + (if pc.holds i then 1 else 0) = s.held i + if pc'.holds i then 1 else 0 := by
  have hset := countP_set_ite (p := (·.holds i)) hw pc'
  simp only [held, setWorker]
  omega

theorem known_setWorker (hw : s.workers[w]? = some pc) (pc' : WorkerPc) :
    (s.setWorker w pc').known i + (if pc.probes i then 1 else 0) = s.known i + if pc'.probes i then 1 else 0 := by
  have hset := countP_set_ite (p := (·.probes i)) hw pc'
  simp only [known, setWorker]
  omega

end DiscoverState

/-- Every index that was produced is in at most one place, and in one place while the context has not ended; it is
    probed once. -/
structure FlowInv (s : DiscoverState) : Prop where
  once : ∀ i, s.held i ≤ if i < s.idx then 1 else 0
  kept : s.ctx = none → ∀ i, s.held i = if i < s.idx then 1 else 0
  probed : ∀ i, s.known i = if i < s.idx then 1 else 0

namespace FlowInv
variable {γ σ : Type} {d : Discovery γ σ} {s s' : DiscoverState}

theorem start (d : Discovery γ σ) : FlowInv d.start where
  once _ := Nat.zero_le _
  kept _ _ := rfl
  probed _ := rfl

/-- An index goes from one place to another. -/
theorem pass (h : FlowInv s) (hctx : s'.ctx = s.ctx) (hidx : s'.idx = s.idx) (hheld : ∀ i, s'.held i = s.held i)
    (hknown : ∀ i, s'.known i = s.known i) : FlowInv s' where
  once i := by
    rw [hheld, hidx]
    exact h.once i
  kept hnone i := by
    rw [hheld, hidx]
    exact h.kept (hctx ▸ hnone) i
  probed i := by
    rw [hknown, hidx]
    exact h.probed i

theorem produce (h : FlowInv s) {pc : ProducerPc} {ip : String} :
    FlowInv { s with producer := pc, jobs := s.jobs ++ [⟨s.idx, ip⟩], idx := s.idx + 1 } := by
  let s' : DiscoverState := { s with producer := pc, jobs := s.jobs ++ [⟨s.idx, ip⟩], idx := s.idx + 1 }
  have hheld (i : Nat) : s'.held i = s.held i + if s.idx = i then 1 else 0 := by
    simp only [s', DiscoverState.held, List.countP_append, List.countP_singleton, beq_iff_eq]
    omega
  have hknown (i : Nat) : s'.known i = s.known i + if s.idx = i then 1 else 0 := by
    simp only [s', DiscoverState.known, List.countP_append, List.countP_singleton, beq_iff_eq]
    omega
  have hbound (i : Nat) :
      (if i < s.idx + 1 then 1 else 0) = (if i < s.idx then 1 else 0) + if s.idx = i then 1 else 0 := by
    split_ifs <;> omega
  refine ⟨fun i => ?_, fun hctx i => ?_, fun i => ?_⟩
  · rw [hheld, hbound]
    exact Nat.add_le_add_right (h.once i) _
  · rw [hheld, hbound, h.kept hctx]
  · rw [hknown, hbound, h.probed]

theorem step (h : FlowInv s) (hc : ControlInv d s) (hmove : DiscoverMove d s s') : FlowInv s' := by
  cases hmove with
  | ended err hctx => exact { h with kept := nofun }
  | made hmain =>
    have hempty : s.results = { vals := [] } := hc.empty (by rw [hmain]; rfl)
    refine h.pass rfl rfl (fun i => ?_) fun _ => rfl
    simp [DiscoverState.held, Slots.make, hempty]
  | spawned hmain =>
    refine h.pass rfl rfl (fun i => ?_) fun i => ?_
    · simp [DiscoverState.held, WorkerPc.holds]
    · simp [DiscoverState.known, WorkerPc.probes]
  | collected hmain hout hwrite =>
    obtain ⟨-, rfl⟩ := Slots.write_eq_some.mp hwrite
    refine h.pass rfl rfl (fun i => ?_) fun _ => rfl
    simp only [DiscoverState.held, hout, List.countP_cons, List.count_cons]
    omega
  | produced hproducer => exact h.produce
  | @received w j jobs hw hjobs =>
    refine h.pass rfl rfl (fun i => ?_) fun i => ?_
    · have hset : (s.setWorker w (.probing j)).held i = s.held i + if j.i == i then 1 else 0 :=
        DiscoverState.held_setWorker i hw (.probing j)
      simp only [DiscoverState.held, DiscoverState.setWorker, hjobs, List.countP_cons] at hset ⊢
      omega
    · have hset : (s.setWorker w (.probing j)).known i = s.known i + if j.i == i then 1 else 0 :=
        DiscoverState.known_setWorker i hw (.probing j)
      simp only [DiscoverState.known, DiscoverState.setWorker, hjobs, List.countP_cons] at hset ⊢
      omega
  | @drained w hw hjobs hproducer =>
    exact h.pass rfl rfl (fun i => DiscoverState.held_setWorker i hw .done)
      fun i => DiscoverState.known_setWorker i hw .done
  | @probed w j fuel world r hw hr =>
    refine h.pass rfl rfl (fun i => ?_) fun i => ?_
    · exact Nat.add_right_cancel (DiscoverState.held_setWorker i hw (.sending j r))
    · have hset : (s.setWorker w (.sending j r)).known i + (if j.i == i then 1 else 0) = s.known i :=
        DiscoverState.known_setWorker i hw (.sending j r)
      simp only [DiscoverState.known, DiscoverState.setWorker, List.countP_cons] at hset ⊢
      omega
  | @sent w j r hw =>
    refine h.pass rfl rfl (fun i => ?_) fun i => DiscoverState.known_setWorker i hw .receiving
    have hset : (s.setWorker w .receiving).held i + (if j.i == i then 1 else 0) = s.held i :=
      DiscoverState.held_setWorker i hw .receiving
    simp only [DiscoverState.held, DiscoverState.setWorker, List.countP_append, List.countP_singleton] at hset ⊢
    omega
  | @left w j r err hw hctx =>
    -- the index is lost with the result of the worker
    refine ⟨fun i => ?_, fun hnone => ?_, fun i => ?_⟩
    · exact (Nat.le.intro (DiscoverState.held_setWorker i hw .done)).trans (h.once i)
    · cases hctx.symm.trans hnone
    · exact (DiscoverState.known_setWorker i hw .done).trans (h.probed i)
  | counted | canceled | allCounted | noHosts | allSpawned | startedProducer | startedWaiter | outEnded | returned
  | panicked | streamEnded | stopped | jobsClosed | joined | outClosed => exact { h with }

end FlowInv

/-! ### Data -/

/-- The probe of the host with this index has ended with this result. -/
def IsProbeResult {γ σ : Type} (d : Discovery γ σ) (s : DiscoverState) (i : Nat) (r : DiscoverResult) : Prop :=
  ∃ ip, d.hosts[i]? = some ip ∧ (⟨i, ip⟩, r) ∈ s.probes

/-- What stands in the channels, at the workers and in the results belongs to its index. -/
structure DataInv {γ σ : Type} (d : Discovery γ σ) (s : DiscoverState) : Prop where
  jobs : ∀ j ∈ s.jobs, d.hosts[j.i]? = some j.ip
  probing : ∀ j, .probing j ∈ s.workers → d.hosts[j.i]? = some j.ip
  sending : ∀ j r, .sending j r ∈ s.workers → IsProbeResult d s j.i r
  out : ∀ i r, (i, r) ∈ s.out → IsProbeResult d s i r
  results : Slots.Filled {} (IsProbeResult d s) s.results
  probes : ∀ j r, (j, r) ∈ s.probes → ∃ fuel world, d.probe j.ip fuel world = some r

namespace DataInv
variable {γ σ : Type} {d : Discovery γ σ} {s s' : DiscoverState}

theorem start (d : Discovery γ σ) : DataInv d d.start where
  jobs _ h := absurd h List.not_mem_nil
  probing _ h := absurd h List.not_mem_nil
  sending _ _ h := absurd h List.not_mem_nil
  out _ _ h := absurd h List.not_mem_nil
  results := Slots.filled_make _ _ 0
  probes _ _ h := absurd h List.not_mem_nil

theorem setWorker (h : DataInv d s) (w : Nat) (pc : WorkerPc)
    (hprobing : ∀ j, pc = .probing j → d.hosts[j.i]? = some j.ip)
    (hsending : ∀ j r, pc = .sending j r → IsProbeResult d s j.i r) : DataInv d (s.setWorker w pc) :=
  { h with
    probing := fun j hj => (List.mem_or_eq_of_mem_set hj).elim (h.probing j) fun hpc => hprobing j hpc.symm
    sending := fun j r hj => (List.mem_or_eq_of_mem_set hj).elim (h.sending j r) fun hpc => hsending j r hpc.symm }

/-- A worker without a job is left. -/
theorem freeWorker (h : DataInv d s) (w : Nat) {pc : WorkerPc} (hpc : pc = .receiving ∨ pc = .done) :
    DataInv d (s.setWorker w pc) := by
  refine h.setWorker w pc (fun j hj => ?_) fun j r hj => ?_
  · rcases hpc with rfl | rfl <;> cases hj
  · rcases hpc with rfl | rfl <;> cases hj

/-- A further probe does not take back the results of the others. -/
theorem addProbe (h : DataInv d s) {j : Job} {r : DiscoverResult}
    (hprobe : ∃ fuel world, d.probe j.ip fuel world = some r) :
    DataInv d { s with probes := (j, r) :: s.probes } := by
  have hmono (i : Nat) (r' : DiscoverResult) (hr : IsProbeResult d s i r') :
      IsProbeResult d { s with probes := (j, r) :: s.probes } i r' := by
    obtain ⟨ip, hip, hmem⟩ := hr
    exact ⟨ip, hip, List.mem_cons_of_mem _ hmem⟩
  exact { h with
    sending := fun j r hj => hmono _ _ (h.sending j r hj)
    out := fun i r hi => hmono _ _ (h.out i r hi)
    results := h.results.mono hmono
    probes := fun j' r' hmem => by
      rcases List.mem_cons.mp hmem with heq | hmem
      · cases heq
        exact hprobe
      · exact h.probes j' r' hmem }

theorem step (h : DataInv d s) (hc : ControlInv d s) (hmove : DiscoverMove d s s') : DataInv d s' := by
  cases hmove with
  | made hmain => exact { h with results := Slots.filled_make _ _ _ }
  | spawned hmain =>
    exact { h with
      probing := fun j hj => h.probing j (by simpa using hj)
      sending := fun j r hj => h.sending j r (by simpa using hj) }
  | @collected i r out results hmain hout hwrite =>
    obtain ⟨-, rfl⟩ := Slots.write_eq_some.mp hwrite
    exact { h with
      out := fun i r hmem => h.out i r (hout ▸ List.mem_cons_of_mem _ hmem)
      results := h.results.write (h.out i r (hout ▸ List.mem_cons_self ..)) }
  | @produced ip rest hproducer =>
    have hhost : d.hosts[s.idx]? = some ip := by
      rw [← List.head?_drop, ← hc.streaming _ hproducer]
      rfl
    exact { h with
      jobs := fun j hj => by
        rcases List.mem_append.mp hj with hj | hj
        · exact h.jobs j hj
        · rw [List.mem_singleton.mp hj]
          exact hhost }
  | @received w j jobs hw hjobs =>
    have hjob : d.hosts[j.i]? = some j.ip := h.jobs j (hjobs ▸ List.mem_cons_self ..)
    exact { h.setWorker w (.probing j) (by rintro _ ⟨⟩; exact hjob) (by rintro _ _ ⟨⟩) with
      jobs := fun j hj => h.jobs j (hjobs ▸ List.mem_cons_of_mem _ hj) }
  | drained => exact h.freeWorker _ (.inr rfl)
  | @probed w j fuel world r hw hr =>
    have hjob : d.hosts[j.i]? = some j.ip := h.probing j (List.mem_of_getElem? hw)
    refine (h.addProbe ⟨fuel, world, hr⟩).setWorker w (.sending j r) nofun ?_
    rintro _ _ ⟨⟩
    exact ⟨j.ip, hjob, List.mem_cons_self ..⟩
  | @sent w j r hw =>
    exact { h.freeWorker w (.inl rfl) with
      out := fun i r hmem => by
        rcases List.mem_append.mp hmem with hmem | hmem
        · exact h.out i r hmem
        · cases List.mem_singleton.mp hmem
          exact h.sending j r (List.mem_of_getElem? hw) }
  | left => exact h.freeWorker _ (.inr rfl)
  | ended | counted | canceled | allCounted | noHosts | allSpawned | startedProducer | startedWaiter | outEnded
  | returned | panicked | streamEnded | stopped | jobsClosed | joined | outClosed => exact { h with }

end DataInv

/-! ### Runs -/

/-- What holds in every state of a run. -/
structure DiscoverInv {γ σ : Type} (d : Discovery γ σ) (s : DiscoverState) : Prop where
  control : ControlInv d s
  flow : FlowInv s
  data : DataInv d s
  /-- With a context that has not ended, a call that has returned has written every result. -/
  returned : ∀ results err, s.main = .returned results err → s.ctx = none →
    err = none ∧ results = some s.results.vals ∧ s.results.vals.length = d.hosts.length ∧
      ∀ i, i < d.hosts.length → i ∈ s.results.writes

namespace DiscoverInv
variable {γ σ : Type} {d : Discovery γ σ} {s s' : DiscoverState}

theorem start (d : Discovery γ σ) : DiscoverInv d d.start := ⟨.start d, .start d, .start d, nofun⟩

/-- When `out` is closed and empty and the context has not ended, every index is in the results. -/
theorem all_written (h : DiscoverInv d s) (hmain : s.main = .checking) (hctx : s.ctx = none) {i : Nat}
    (hi : i < d.hosts.length) : i ∈ s.results.writes := by
  obtain ⟨hwaiter, hout⟩ := h.control.closed hmain
  have hall := h.control.joined (.inr hwaiter)
  obtain ⟨pc, hpc⟩ := List.exists_mem_of_ne_nil _ (h.control.waited (by rw [hwaiter]; nofun))
  obtain ⟨hproducer, hjobs⟩ := h.control.drained hctx (hall pc hpc ▸ hpc)
  have hidx := h.control.streamed hctx (.inr hproducer)
  have hworkers : s.workers.countP (·.holds i) = 0 := by
    refine List.countP_eq_zero.mpr fun pc hpc => ?_
    rw [hall pc hpc]
    nofun
  have hheld := h.flow.kept hctx i
  rw [if_pos (by omega), DiscoverState.held, hjobs, hout, hworkers] at hheld
  exact List.count_pos_iff.mp (by simp at hheld; omega)

theorem step (h : DiscoverInv d s) (hmove : DiscoverMove d s s') : DiscoverInv d s' := by
  refine ⟨h.control.step hmove, h.flow.step h.control hmove, h.data.step h.control hmove, ?_⟩
  cases hmove with
  | ended err hctx => nofun
  | canceled hmain hctx =>
    rintro _ _ - hnone
    cases hctx.symm.trans hnone
  | noHosts hmain =>
    rintro _ _ ⟨⟩ -
    rw [h.control.empty (by rw [hmain]; rfl), ← h.control.making 0 hmain]
    exact ⟨rfl, rfl, rfl, fun _ hi => absurd hi (Nat.not_lt_zero _)⟩
  | returned hmain =>
    rintro _ _ ⟨⟩ hnone
    have hsized := h.control.sized (by rw [hmain]; decide) (by rw [hmain]; decide)
    exact ⟨hnone, rfl, hsized, fun _ hi => h.all_written hmain hnone hi⟩
  | spawned hmain | collected hmain hout hwrite =>
    rintro _ _ hreturned -
    cases hmain.symm.trans hreturned
  | counted | allCounted | made | allSpawned | startedProducer | startedWaiter | outEnded | panicked => nofun
  | produced | streamEnded | stopped | jobsClosed | joined | outClosed | received | drained | probed | sent | left =>
    exact h.returned

theorem of_run {as : List (DiscoverAction σ)} (hrun : Go.run (discoverStep d) d.start as = some s) : DiscoverInv d s :=
  run_invariant (fun _ _ _ h hstep => h.step (discoverStep_move hstep)) (start d) hrun

end DiscoverInv

/-- Every interleaving of a call of `Discover` over a network that the stream accepts keeps the results in the order of
    the addresses. -/
theorem discover_in_order {γ σ : Type} (d : Discovery γ σ) (parseCIDR : String → Except String IPNet) (cidr : String)
    (hhosts : streamCIDR (fun sent => (none, sent)) (fun ip sent => (true, sent ++ [ip])) parseCIDR cidr [] =
      (.ok (), d.hosts))
    (as : List (DiscoverAction σ)) (s : DiscoverState) (hrun : Go.run (discoverStep d) d.start as = some s) :
    (∀ {τ : Type} (ctxErr : τ → Option GoError × τ) (send : String → τ → Bool × τ),
        streamCIDR ctxErr send parseCIDR cidr = sendAll ctxErr send d.hosts) ∧
      s.results.writes.Nodup ∧
      (∀ i r, s.results.vals[i]? = some r → r = {} ∨
        ∃ ip fuel world, d.hosts[i]? = some ip ∧ (⟨i, ip⟩, r) ∈ s.probes ∧ d.probe ip fuel world = some r) ∧
      (s.probes.map (·.1.i)).Nodup ∧
      (∀ results err, s.main = .returned results err → s.ctx = none →
        err = none ∧ results = some s.results.vals ∧ s.results.vals.length = d.hosts.length ∧
          ∀ i, i < d.hosts.length → i ∈ s.results.writes) := by
  have h := DiscoverInv.of_run hrun
  refine ⟨streamCIDR_sendAll hhosts, ?_, fun i r hr => ?_, ?_, h.returned⟩
  · refine List.nodup_iff_count_le_one.mpr fun i => ?_
    have honce := h.flow.once i
    rw [DiscoverState.held] at honce
    split at honce <;> omega
  · rcases h.data.results i r hr with ⟨-, hzero⟩ | ⟨-, ip, hip, hmem⟩
    · exact .inl hzero
    · obtain ⟨fuel, world, hprobe⟩ := h.data.probes _ _ hmem
      exact .inr ⟨ip, fuel, world, hip, hmem, hprobe⟩
  · refine List.nodup_iff_count_le_one.mpr fun i => ?_
    have hprobed := h.flow.probed i
    rw [DiscoverState.known] at hprobed
    rw [List.count, List.countP_map]
    split at hprobed <;> simp only [Function.comp_def] <;> omega

/-- Two hosts that nobody answers for, and two workers. -/
def pairDiscovery : Discovery Unit Unit where
  env _ :=
    { ctxErr := fun w => (none, w), wait := fun w => (none, w), dialCOTP := fun _ _ w => (.error (.text "refused"), w)
      writeTSDU := fun _ _ w => (none, w), readTSDU := fun _ w => (.ok [], w), close := fun _ w => (none, w) }
  opts := { parallel := 2, rackMax := 0, slotMax := 0, safetyMode := .normal }
  hosts := ["10.0.0.0", "10.0.0.1"]
  chanLimit := 1000

/-- The second host is done before the first one. -/
def pairRun : List (DiscoverAction Unit) :=
  [.main, .main, .main, .main, .main, .main, .main, .main, .main, .produce, .produce, .receive 0, .receive 1,
    .probe 1 3 (), .send 1, .main, .probe 0 3 (), .send 0, .produce, .produce, .receive 0, .receive 1, .wait, .wait,
    .main, .main, .main]

def silentResult (ip : String) : DiscoverResult where
  ip := ip
  port := 102
  error := "no valid COTP+S7 setup for tested rack/slot range"

def pairState : DiscoverState where
  main := .returned (some [silentResult "10.0.0.0", silentResult "10.0.0.1"]) none
  producer := .done
  idx := 2
  waiter := .done
  workers := [.done, .done]
  results := ⟨[silentResult "10.0.0.0", silentResult "10.0.0.1"], [0, 1]⟩
  probes := [(⟨0, "10.0.0.0"⟩, silentResult "10.0.0.0"), (⟨1, "10.0.0.1"⟩, silentResult "10.0.0.1")]

theorem run_pair : Go.run (discoverStep pairDiscovery) pairDiscovery.start pairRun = some pairState := rfl

/-- The results are in the order of the addresses, although they were written the other way round. -/
theorem discover_in_order_pair :
    pairState.main = .returned (some [silentResult "10.0.0.0", silentResult "10.0.0.1"]) none ∧
      pairState.results.writes.Nodup ∧ ∀ i, i < 2 → i ∈ pairState.results.writes := by
  obtain ⟨-, hnodup, -, -, hreturned⟩ := discover_in_order pairDiscovery
    (fun _ => .ok ⟨[10, 0, 0, 0], cidrMask 31⟩) "10.0.0.0/31" (by decide +kernel) pairRun pairState run_pair
  exact ⟨rfl, hnodup, (hreturned _ _ rfl rfl).2.2.2⟩

end S7Comm
