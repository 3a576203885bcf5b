import S7Comm.Theorems.Discover

/-! Progress of discovery. The channel of the results has room for all of them, and so no worker waits for the thread
    that collects them; the channel of the jobs is closed whatever happens to the context, and so no worker waits for a
    job that does not come. Hence every call ends, and never with a panic of its own making. -/

namespace S7Comm
open Go

/-- The channels can be made: their sizes are positive, and within the limit of `make`. -/
structure HasRoom {γ σ : Type} (d : Discovery γ σ) : Prop where
  jobs_pos : 0 < d.jobsCap.toInt
  jobs_le : d.jobsCap.toInt ≤ d.chanLimit
  out_le : d.hosts.length ≤ d.chanLimit

/-! ### Started threads -/

/-- The threads that `Discover` has started are not idle. -/
structure StartedInv (s : DiscoverState) : Prop where
  producer : s.main = .startingWaiter ∨ s.main = .collecting → s.producer ≠ .idle
  waiter : s.main = .collecting → s.waiter ≠ .idle

namespace StartedInv
variable {γ σ : Type} {d : Discovery γ σ} {s s' : DiscoverState}

theorem start (d : Discovery γ σ) : StartedInv d.start := by
  refine ⟨?_, nofun⟩
  rintro (h | h) <;> cases h

/-- `Discover` is at a place where no thread needs to have been started. -/
theorem elsewhere (hwaiter : s.main ≠ .startingWaiter) (hcollecting : s.main ≠ .collecting) : StartedInv s :=
  ⟨fun h => h.elim (absurd · hwaiter) (absurd · hcollecting), fun h => absurd h hcollecting⟩

theorem step (h : StartedInv s) (hmove : DiscoverMove d s s') : StartedInv s' := by
  cases hmove with
  | startedProducer => exact ⟨fun _ => nofun, nofun⟩
  | startedWaiter hmain => exact ⟨fun _ => h.producer (.inl hmain), fun _ => nofun⟩
  | produced | streamEnded | stopped | jobsClosed => exact ⟨fun _ => nofun, h.waiter⟩
  | joined | outClosed => exact ⟨h.producer, fun _ => nofun⟩
  | counted | canceled | allCounted | noHosts | made | allSpawned | outEnded | returned | panicked =>
    exact elsewhere nofun nofun
  | ended | spawned | collected | received | drained | probed | sent | left => exact ⟨h.producer, h.waiter⟩

end StartedInv

/-! ### Results -/

section Results
variable {γ σ : Type} {d : Discovery γ σ} {s s' : DiscoverState} {w : Nat}

/-- While `Discover` collects, the results have an entry for each host. -/
theorem DiscoverInv.collecting_sized (h : DiscoverInv d s) (hmain : s.main = .collecting) :
    s.results.vals.length = d.hosts.length :=
  h.control.sized (by rw [hmain]; decide) (by rw [hmain]; decide)

theorem IsProbeResult.lt {i : Nat} {r : DiscoverResult} (h : IsProbeResult d s i r) : i < d.hosts.length := by
  obtain ⟨ip, hip, -⟩ := h
  exact (List.getElem?_eq_some_iff.mp hip).1

/-- A worker that sends a result finds room: the results in the channel are those of other hosts. -/
theorem DiscoverInv.out_lt (h : DiscoverInv d s) {j : Job} {r : DiscoverResult}
    (hw : s.workers[w]? = some (.sending j r)) : s.out.length < d.hosts.length := by
  have hcount : ∀ i, (s.out.map Prod.fst).count i + (if j.i = i then 1 else 0) ≤ 1 := by
    intro i
    have honce : s.held i ≤ 1 := (h.flow.once i).trans (by split <;> decide)
    have hout : (s.out.map Prod.fst).count i = s.out.countP (·.1 == i) := List.countP_map
    rw [DiscoverState.held] at honce
    rw [hout]
    split
    · rename_i hi
      have hpos : 0 < s.workers.countP (·.holds i) :=
        List.countP_pos_iff.mpr ⟨_, List.mem_of_getElem? hw, by simp [WorkerPc.holds, hi]⟩
      omega
    · omega
  have hnodup : (j.i :: s.out.map Prod.fst).Nodup := by
    refine List.nodup_iff_count_le_one.mpr fun i => ?_
    rw [List.count_cons]
    simpa using hcount i
  have hlt : ∀ i ∈ j.i :: s.out.map Prod.fst, i ∈ List.range d.hosts.length := by
    intro i hi
    rw [List.mem_range]
    rcases List.mem_cons.mp hi with rfl | hi
    · exact (h.data.sending j r (List.mem_of_getElem? hw)).lt
    · obtain ⟨⟨i, r⟩, hmem, rfl⟩ := List.mem_map.mp hi
      exact (h.data.out i r hmem).lt
  have hle := (hnodup.subperm hlt).length_le
  rw [List.length_cons, List.length_map, List.length_range] at hle
  exact hle

/-- While a worker runs, `out` is not closed. -/
theorem DiscoverInv.waiter_ne_done (h : DiscoverInv d s) {pc : WorkerPc} (hw : s.workers[w]? = some pc) (hpc : pc ≠ .done) :
    s.waiter ≠ .done := fun hdone => hpc (h.control.joined (.inr hdone) pc (List.mem_of_getElem? hw))

end Results

/-! ### No panic -/

section Calm
variable {γ σ : Type} {d : Discovery γ σ} {s s' : DiscoverState}

theorem write_ne_none (h : DiscoverInv d s) (hmain : s.main = .collecting) {i : Nat} {r : DiscoverResult}
    {out : List (Nat × DiscoverResult)} (hout : s.out = (i, r) :: out) : s.results.write i r ≠ none := by
  have hlt := (h.data.out i r (hout ▸ List.mem_cons_self ..)).lt
  rw [Slots.write_of_lt r (h.collecting_sized hmain ▸ hlt)]
  exact Option.some_ne_none _

theorem mainStep_calm (hroom : HasRoom d) (h : DiscoverInv d s) (hs' : d.mainStep s = some s') :
    s'.main ≠ .panicked := by
  unfold Discovery.mainStep at hs'
  split at hs'
  · split at hs' <;> cases hs' <;> nofun
  · cases hs'
    nofun
  · rename_i count hmain
    split at hs'
    · cases hs'
      nofun
    · split at hs'
      · rename_i hbad
        have hcount := h.control.making count hmain
        have hpos := hroom.jobs_pos
        have hjobs := hroom.jobs_le
        have hout := hroom.out_le
        rcases hbad with hneg | hlong | hlong
        · rw [Int64.lt_iff_toInt_lt] at hneg
          exact absurd hneg (by rw [Int64.toInt_zero]; omega)
        · omega
        · omega
      · cases hs'
        nofun
  · rename_i hmain
    split at hs' <;> cases hs'
    · rw [hmain]
      nofun
    · nofun
  · cases hs'
    nofun
  · cases hs'
    nofun
  · rename_i hmain
    split at hs'
    · rename_i hout
      split at hs'
      · cases hs'
        rw [hmain]
        nofun
      · rename_i hwrite
        exact absurd hwrite (write_ne_none h hmain hout)
    · split at hs' <;> cases hs'
      nofun
  · cases hs'
    nofun
  · cases hs'
  · cases hs'

/-- No step of a call ends in a panic. -/
theorem discoverStep_calm (hroom : HasRoom d) (h : DiscoverInv d s) (hcalm : s.main ≠ .panicked)
    {a : DiscoverAction σ} (hs' : discoverStep d s a = some s') : s'.main ≠ .panicked := by
  cases a with
  | endCtx err =>
    rw [discoverStep] at hs'
    split at hs' <;> cases hs'
    exact hcalm
  | main => exact mainStep_calm hroom h hs'
  | produce =>
    rw [discoverStep, Discovery.produceStep] at hs'
    split at hs'
    · split at hs' <;> cases hs'
      exact hcalm
    all_goals
      cases hs' <;> exact hcalm
  | stopProducing =>
    rw [discoverStep, DiscoverState.stopStep] at hs'
    split at hs' <;> cases hs'
    exact hcalm
  | wait =>
    rw [discoverStep, DiscoverState.waitStep] at hs'
    split at hs'
    · split at hs' <;> cases hs'
      exact hcalm
    all_goals
      cases hs' <;> exact hcalm
  | receive w =>
    rw [discoverStep, DiscoverState.receiveStep] at hs'
    split at hs'
    · cases hs'
      exact hcalm
    · split at hs' <;> cases hs'
      exact hcalm
    · cases hs'
  | probe w fuel world =>
    rw [discoverStep, Discovery.probeStep] at hs'
    split at hs'
    · obtain ⟨r, -, rfl⟩ := Option.map_eq_some_iff.mp hs'
      exact hcalm
    · cases hs'
  | send w =>
    rw [discoverStep, DiscoverState.sendStep] at hs'
    split at hs'
    · rename_i hw
      rw [if_neg (h.waiter_ne_done hw (by rintro ⟨⟩))] at hs'
      split at hs' <;> cases hs'
      exact hcalm
    · cases hs'
  | leave w =>
    rw [discoverStep, DiscoverState.leaveStep] at hs'
    split at hs' <;> cases hs'
    exact hcalm

end Calm

/-! ### No deadlock -/

section GoesOn
variable {γ σ : Type} {d : Discovery γ σ} {s s' : DiscoverState}

/-- A worker can go on, if probes come to an end; one that waits for a job may have to wait for the producer. -/
theorem DiscoverInv.worker_goes_on (h : DiscoverInv d s) (hmain : s.main = .collecting)
    (hends : ∀ ip ∈ d.hosts, ∃ fuel world r, d.probe ip fuel world = some r) {w : Nat} {pc : WorkerPc}
    (hw : s.workers[w]? = some pc) (hpc : pc ≠ .done) (hwait : pc = .receiving → s.jobs ≠ [] ∨ s.producer = .done) :
    ∃ a s', (∀ err, a ≠ .endCtx err) ∧ discoverStep d s a = some s' := by
  cases pc with
  | receiving =>
    cases hjobs : s.jobs with
    | nil =>
      have hdone := (hwait rfl).resolve_left (absurd hjobs)
      exact ⟨.receive w, s.setWorker w .done, fun _ h => (by cases h), by simp [discoverStep, DiscoverState.receiveStep, hw, hjobs, hdone]⟩
    | cons j jobs =>
      exact ⟨.receive w, { s.setWorker w (.probing j) with jobs }, fun _ h => (by cases h), by
        simp [discoverStep, DiscoverState.receiveStep, hw, hjobs]⟩
  | probing j =>
    have hhost := h.data.probing j (List.mem_of_getElem? hw)
    obtain ⟨fuel, world, r, hr⟩ := hends j.ip (List.mem_of_getElem? hhost)
    exact ⟨.probe w fuel world, { s.setWorker w (.sending j r) with probes := (j, r) :: s.probes }, fun _ h => (by cases h), by
      simp [discoverStep, Discovery.probeStep, hw, hr]⟩
  | sending j r =>
    have hroom : s.out.length < s.results.vals.length := h.collecting_sized hmain ▸ h.out_lt hw
    exact ⟨.send w, { s.setWorker w .receiving with out := s.out ++ [(j.i, r)] }, fun _ h => (by cases h), by
      simp [discoverStep, DiscoverState.sendStep, hw, h.waiter_ne_done hw (by rintro ⟨⟩), hroom]⟩
  | done => exact absurd rfl hpc

/-- The producer can go on, once it is started and unless it is done, when the channel of the jobs is empty. -/
theorem producer_goes_on (hroom : HasRoom d) (hidle : s.producer ≠ .idle) (hdone : s.producer ≠ .done)
    (hjobs : s.jobs = []) : ∃ s', discoverStep d s .produce = some s' := by
  have hpos := hroom.jobs_pos
  cases hproducer : s.producer with
  | idle => exact absurd hproducer hidle
  | streaming rest =>
    cases rest with
    | nil => exact ⟨{ s with producer := .closing }, by simp [discoverStep, Discovery.produceStep, hproducer]⟩
    | cons ip rest =>
      exact ⟨{ s with producer := .streaming rest, jobs := s.jobs ++ [⟨s.idx, ip⟩], idx := s.idx + 1 }, by
        simp [discoverStep, Discovery.produceStep, hproducer, hjobs, hpos]⟩
  | closing => exact ⟨{ s with producer := .done }, by simp [discoverStep, Discovery.produceStep, hproducer]⟩
  | done => exact absurd hproducer hdone

/-- `Discover` waits for a result: another thread can go on. -/
theorem DiscoverInv.others_go_on (hroom : HasRoom d) (h : DiscoverInv d s) (hstarted : StartedInv s)
    (hmain : s.main = .collecting) (hends : ∀ ip ∈ d.hosts, ∃ fuel world r, d.probe ip fuel world = some r)
    (hwaiter : s.waiter ≠ .done) : ∃ a s', (∀ err, a ≠ .endCtx err) ∧ discoverStep d s a = some s' := by
  cases hpc : s.waiter with
  | idle => exact absurd hpc (hstarted.waiter hmain)
  | done => exact absurd hpc hwaiter
  | closing =>
    exact ⟨.wait, { s with waiter := .done }, fun _ h => (by cases h), by simp [discoverStep, DiscoverState.waitStep, hpc]⟩
  | waiting =>
    by_cases hall : ∀ pc ∈ s.workers, pc = .done
    · have hall' : s.workers.all (· == .done) = true := by simpa using hall
      exact ⟨.wait, { s with waiter := .closing }, fun _ h => (by cases h), by simp [discoverStep, DiscoverState.waitStep, hpc, hall']⟩
    · simp only [not_forall] at hall
      obtain ⟨pc, hmem, hne⟩ := hall
      obtain ⟨w, hw⟩ := List.mem_iff_getElem?.mp hmem
      by_cases hstuck : s.jobs = [] ∧ s.producer ≠ .done
      · obtain ⟨s', hs'⟩ := producer_goes_on hroom (hstarted.producer (.inr hmain)) hstuck.2 hstuck.1
        exact ⟨.produce, s', fun _ h => (by cases h), hs'⟩
      · refine h.worker_goes_on hmain hends hw hne fun _ => ?_
        by_cases hjobs : s.jobs = []
        · exact .inr (not_not.mp fun hdone => hstuck ⟨hjobs, hdone⟩)
        · exact .inl hjobs

/-- A call that has not ended can go on. -/
theorem DiscoverInv.goes_on (hroom : HasRoom d) (h : DiscoverInv d s) (hstarted : StartedInv s)
    (hends : ∀ ip ∈ d.hosts, ∃ fuel world r, d.probe ip fuel world = some r) (hcalm : s.main ≠ .panicked)
    (hmain : ∀ results err, s.main ≠ .returned results err) :
    ∃ a s', (∀ err, a ≠ .endCtx err) ∧ discoverStep d s a = some s' := by
  have hstep : d.mainStep s ≠ none → ∃ a s', (∀ err, a ≠ .endCtx err) ∧ discoverStep d s a = some s' := by
    intro hne
    obtain ⟨s', hs'⟩ := Option.ne_none_iff_exists'.mp hne
    exact ⟨.main, s', fun _ h => (by cases h), hs'⟩
  cases hpc : s.main with
  | counting rest count =>
    refine hstep ?_
    cases rest with
    | nil => simp [Discovery.mainStep, hpc]
    | cons ip rest => cases hctx : s.ctx <;> simp [Discovery.mainStep, hpc, hctx]
  | making count =>
    refine hstep ?_
    simp only [Discovery.mainStep, hpc]
    split_ifs <;> exact Option.some_ne_none _
  | spawning =>
    refine hstep ?_
    simp only [Discovery.mainStep, hpc]
    split_ifs <;> exact Option.some_ne_none _
  | startingProducer => exact hstep (by simp [Discovery.mainStep, hpc])
  | startingWaiter => exact hstep (by simp [Discovery.mainStep, hpc])
  | collecting =>
    cases hout : s.out with
    | cons e out =>
      obtain ⟨results, hwrite⟩ := Option.ne_none_iff_exists'.mp (write_ne_none h hpc hout)
      exact hstep (by simp [Discovery.mainStep, hpc, hout, hwrite])
    | nil =>
      by_cases hwaiter : s.waiter = .done
      · exact hstep (by simp [Discovery.mainStep, hpc, hout, hwaiter])
      · exact h.others_go_on hroom hstarted hpc hends hwaiter
  | checking => exact hstep (by simp [Discovery.mainStep, hpc])
  | returned results err => exact absurd hpc (hmain results err)
  | panicked => exact absurd hpc hcalm

end GoesOn

/-! ### Every run ends -/

/-- The steps that a worker has still to take for its job, with the one in which the result is collected, and the one in
    which it ends. -/
def WorkerPc.stepsLeft : WorkerPc → Nat
  | .receiving => 1
  | .probing _ => 4
  | .sending .. => 3
  | .done => 0

/-- The steps of the producer, and those of the workers for the jobs that it has still to send. -/
def ProducerPc.stepsLeft (n : Nat) : ProducerPc → Nat
  | .idle => 5 * n + 2
  | .streaming rest => 5 * rest.length + 2
  | .closing => 1
  | .done => 0

def WaiterPc.stepsLeft : WaiterPc → Nat
  | .idle | .waiting => 2
  | .closing => 1
  | .done => 0

/-- The steps of `Discover` itself, apart from collecting; `p` is the number of workers, of which it has started `k`. -/
def DiscoverPc.stepsLeft (p k : Nat) : DiscoverPc → Nat
  | .counting rest _ => rest.length + (2 * p + 7)
  | .making _ => 2 * p + 6
  | .spawning => 2 * (p - k) + 5
  | .startingProducer => 4
  | .startingWaiter => 3
  | .collecting => 2
  | .checking => 1
  | .returned .. | .panicked => 0

/-- How many actions a call has left, at most; the end of the context is one of them. -/
def DiscoverState.stepsLeft {γ σ : Type} (d : Discovery γ σ) (s : DiscoverState) : Nat :=
  s.ctx.elim 1 (fun _ => 0) + s.main.stepsLeft d.parallel.toInt.toNat s.workers.length +
    s.producer.stepsLeft d.hosts.length + s.waiter.stepsLeft + 4 * s.jobs.length +
    (s.workers.map WorkerPc.stepsLeft).sum + s.out.length

section Bound
variable {γ σ : Type} {d : Discovery γ σ} {s s' : DiscoverState}

/-- A worker goes on, and moves a job or a result. -/
theorem stepsLeft_worker {w : Nat} {pc : WorkerPc} (hw : s.workers[w]? = some pc) (pc' : WorkerPc) {jobs : List Job}
    {out : List (Nat × DiscoverResult)} {probes : List (Job × DiscoverResult)}
    (hlt : pc'.stepsLeft + 4 * jobs.length + out.length < pc.stepsLeft + 4 * s.jobs.length + s.out.length) :
    DiscoverState.stepsLeft d { s.setWorker w pc' with jobs, out, probes } < s.stepsLeft d := by
  have hset := sum_map_set WorkerPc.stepsLeft hw pc'
  simp only [DiscoverState.stepsLeft, DiscoverState.setWorker, List.length_set]
  omega

theorem stepsLeft_mainStep (h : ControlInv d s) (hs' : d.mainStep s = some s') : s'.stepsLeft d < s.stepsLeft d := by
  unfold Discovery.mainStep at hs'
  split at hs'
  · rename_i hmain
    split at hs' <;> cases hs' <;>
      simp only [DiscoverState.stepsLeft, DiscoverPc.stepsLeft, hmain, List.length_cons] <;> omega
  · rename_i hmain
    cases hs'
    simp only [DiscoverState.stepsLeft, DiscoverPc.stepsLeft, hmain, List.length_nil]
    omega
  · rename_i hmain
    split at hs'
    · cases hs'
      simp only [DiscoverState.stepsLeft, DiscoverPc.stepsLeft, hmain]
      omega
    · split at hs' <;> cases hs' <;> simp only [DiscoverState.stepsLeft, DiscoverPc.stepsLeft, hmain] <;> omega
  · rename_i hmain
    split at hs'
    · cases hs'
      simp only [DiscoverState.stepsLeft, DiscoverPc.stepsLeft, hmain, List.length_append, List.length_singleton,
        List.map_append, List.map_singleton, List.sum_append, List.sum_singleton, WorkerPc.stepsLeft]
      omega
    · cases hs'
      simp only [DiscoverState.stepsLeft, DiscoverPc.stepsLeft, hmain]
      omega
  · rename_i hmain
    cases hs'
    have hidle := h.idle (by rw [hmain]; decide)
    simp only [DiscoverState.stepsLeft, DiscoverPc.stepsLeft, ProducerPc.stepsLeft, hmain, hidle]
    omega
  · rename_i hmain
    cases hs'
    have hidle := h.unwaited (by rw [hmain]; decide)
    simp only [DiscoverState.stepsLeft, DiscoverPc.stepsLeft, WaiterPc.stepsLeft, hmain, hidle]
    omega
  · rename_i hmain
    split at hs'
    · rename_i hout
      split at hs' <;> cases hs' <;>
        simp only [DiscoverState.stepsLeft, DiscoverPc.stepsLeft, hmain, hout, List.length_cons] <;> omega
    · split at hs' <;> cases hs'
      simp only [DiscoverState.stepsLeft, DiscoverPc.stepsLeft, hmain]
      omega
  · rename_i hmain
    cases hs'
    simp only [DiscoverState.stepsLeft, DiscoverPc.stepsLeft, hmain]
    omega
  · cases hs'
  · cases hs'

theorem stepsLeft_produceStep (hs' : d.produceStep s = some s') : s'.stepsLeft d < s.stepsLeft d := by
  unfold Discovery.produceStep at hs'
  split at hs'
  · rename_i hproducer
    split at hs' <;> cases hs'
    simp only [DiscoverState.stepsLeft, ProducerPc.stepsLeft, hproducer, List.length_cons, List.length_append,
      List.length_nil]
    omega
  · rename_i hproducer
    cases hs'
    simp only [DiscoverState.stepsLeft, ProducerPc.stepsLeft, hproducer, List.length_nil]
    omega
  · rename_i hproducer
    cases hs'
    simp only [DiscoverState.stepsLeft, ProducerPc.stepsLeft, hproducer]
    omega
  · cases hs'
  · cases hs'

theorem stepsLeft_waitStep (hs' : s.waitStep = some s') : s'.stepsLeft d < s.stepsLeft d := by
  unfold DiscoverState.waitStep at hs'
  split at hs'
  · rename_i hwaiter
    split at hs' <;> cases hs'
    simp only [DiscoverState.stepsLeft, WaiterPc.stepsLeft, hwaiter]
    omega
  · rename_i hwaiter
    cases hs'
    simp only [DiscoverState.stepsLeft, WaiterPc.stepsLeft, hwaiter]
    omega
  · cases hs'
  · cases hs'

/-- Every action is one of the steps that are left. -/
theorem stepsLeft_discoverStep (h : DiscoverInv d s) {a : DiscoverAction σ} (hs' : discoverStep d s a = some s') :
    s'.stepsLeft d < s.stepsLeft d := by
  cases a with
  | endCtx err =>
    rw [discoverStep] at hs'
    split at hs' <;> cases hs'
    rename_i hctx
    simp only [DiscoverState.stepsLeft, hctx, Option.elim]
    omega
  | main => exact stepsLeft_mainStep h.control hs'
  | produce => exact stepsLeft_produceStep hs'
  | stopProducing =>
    rw [discoverStep, DiscoverState.stopStep] at hs'
    split at hs' <;> cases hs'
    rename_i hproducer _
    simp only [DiscoverState.stepsLeft, ProducerPc.stepsLeft, hproducer]
    omega
  | wait => exact stepsLeft_waitStep hs'
  | receive w =>
    rw [discoverStep, DiscoverState.receiveStep] at hs'
    split at hs'
    · rename_i hw hjobs
      cases hs'
      refine stepsLeft_worker hw (.probing _) ?_
      simp only [DiscoverState.setWorker, WorkerPc.stepsLeft, hjobs, List.length_cons]
      omega
    · rename_i hw hjobs
      split at hs' <;> cases hs'
      exact stepsLeft_worker hw .done (by simp only [WorkerPc.stepsLeft]; omega)
    · cases hs'
  | probe w fuel world =>
    rw [discoverStep, Discovery.probeStep] at hs'
    split at hs'
    · rename_i hw
      obtain ⟨r, -, rfl⟩ := Option.map_eq_some_iff.mp hs'
      exact stepsLeft_worker hw (.sending _ r) (by simp only [DiscoverState.setWorker, WorkerPc.stepsLeft]; omega)
    · cases hs'
  | send w =>
    rw [discoverStep, DiscoverState.sendStep] at hs'
    split at hs'
    · rename_i hw
      rw [if_neg (h.waiter_ne_done hw (by rintro ⟨⟩))] at hs'
      split at hs' <;> cases hs'
      refine stepsLeft_worker hw .receiving ?_
      simp only [DiscoverState.setWorker, WorkerPc.stepsLeft, List.length_append, List.length_singleton]
      omega
    · cases hs'
  | leave w =>
    rw [discoverStep, DiscoverState.leaveStep] at hs'
    split at hs' <;> cases hs'
    rename_i hw _
    exact stepsLeft_worker hw .done (by simp only [WorkerPc.stepsLeft]; omega)

end Bound

theorem discover_eq_ok {γ σ : Type} {env : String → Env γ σ} {opts : DiscoverOpts} {hosts : List String} {chanLimit : Nat}
    {d : Discovery γ σ} {s₀ : DiscoverState} (h : discover env opts hosts chanLimit = .ok (d, s₀)) :
    d = ⟨env, opts.preset, hosts, chanLimit⟩ ∧ s₀ = d.start := by
  obtain ⟨-, -, h⟩ := Outcome.bind_eq_ok.mp h
  cases h
  exact ⟨rfl, rfl⟩

/-- Every call of `Discover` whose channels can be made ends: it never panics, it takes at most six steps for each
    address, two for each worker and twelve more, whether or not its context ends; and until it has returned, one of
    its threads can go on, if the probes that run come to an end. -/
theorem discover_progress {γ σ : Type} {env : String → Env γ σ} {opts : DiscoverOpts} {hosts : List String}
    {chanLimit : Nat} {d : Discovery γ σ} {s₀ s : DiscoverState} (hcall : discover env opts hosts chanLimit = .ok (d, s₀))
    (hroom : HasRoom d) {as : List (DiscoverAction σ)} (hrun : Go.run (discoverStep d) s₀ as = some s) :
    s.main ≠ .panicked ∧ as.length ≤ 6 * hosts.length + 2 * d.parallel.toInt.toNat + 12 ∧
      ((∀ ip ∈ hosts, ∃ fuel world r, d.probe ip fuel world = some r) →
        (∀ results err, s.main ≠ .returned results err) →
        ∃ a s', (∀ err, a ≠ .endCtx err) ∧ discoverStep d s a = some s') := by
  obtain ⟨hd, rfl⟩ := discover_eq_ok hcall
  have hhosts : d.hosts = hosts := congrArg Discovery.hosts hd
  have hinv := run_invariant (P := fun s => (DiscoverInv d s ∧ StartedInv s) ∧ s.main ≠ .panicked)
    (fun _ _ _ h hstep => ⟨⟨h.1.1.step (discoverStep_move hstep), h.1.2.step (discoverStep_move hstep)⟩,
      discoverStep_calm hroom h.1.1 h.2 hstep⟩) ⟨⟨.start d, .start d⟩, nofun⟩ hrun
  obtain ⟨⟨hdiscover, hstarted⟩, hcalm⟩ := hinv
  rw [← hhosts]
  refine ⟨hcalm, ?_, fun hends hmain => hdiscover.goes_on hroom hstarted hends hcalm hmain⟩
  have hle := run_length_le (P := DiscoverInv d) (μ := DiscoverState.stepsLeft d)
    (fun _ _ _ h hstep => ⟨h.step (discoverStep_move hstep), stepsLeft_discoverStep h hstep⟩) (.start d) hrun
  have hleft : d.start.stepsLeft d = 6 * d.hosts.length + 2 * d.parallel.toInt.toNat + 12 := by
    show 1 + (d.hosts.length + (2 * d.parallel.toInt.toNat + 7)) + (5 * d.hosts.length + 2) + 2 + 4 * 0 + 0 + 0 = _
    omega
  omega

theorem discover_progress_pair : pairRun.length ≤ 6 * 2 + 2 * 2 + 12 ∧ pairState.main ≠ .panicked := by
  have hcall : discover pairDiscovery.env { parallel := 2, rackMax := 0, slotMax := 0 } ["10.0.0.0", "10.0.0.1"] 1000 =
      .ok (pairDiscovery, pairDiscovery.start) := rfl
  have h := discover_progress hcall ⟨by decide, by decide, by decide⟩ run_pair
  exact ⟨h.2.1, h.1⟩

end S7Comm
