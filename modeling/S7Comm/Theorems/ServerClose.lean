import S7Comm.Theorems.Serve

/-! Close waits for the goroutines of connections that the wait group counts. A connection is counted some steps after
    it was added to the set, so the wait can end between the two. -/

namespace S7Comm
open Go

/-- The condition on an action: no wait of a call of Close ends while a connection is in the set and not yet counted. -/
def CleanWait (s : ServerState) : ServerAction → Prop
  | .closer k => s.closers[k]? = some .waiting → ∀ c ∈ s.lives, c.pc ≠ .added
  | _ => True

instance (s : ServerState) : ∀ a, Decidable (CleanWait s a)
  | .closer k => inferInstanceAs (Decidable (s.closers[k]? = some .waiting → ∀ c ∈ s.lives, c.pc ≠ .added))
  | .serve | .loop .. | .conn _ | .close => .isTrue trivial

section Close
variable {cfg : ServerConfig} {s s' : ServerState} {a : ServerAction}

/-- The server is closed, and every goroutine has ended. -/
def Quiet (s : ServerState) : Prop := s.closed = true ∧ ∀ c ∈ s.lives, c.pc.active = false

/-- Nothing starts again on a closed server. -/
theorem Quiet.step (h : Quiet s) (hstep : serverStep cfg s a = some s') : Quiet s' := by
  refine ⟨(serverStep_closed hstep h.1).1, fun d hd => ?_⟩
  rcases serverStep_cases hstep with ⟨i, c, -, hi, hstep⟩ | ⟨l, loops, rfl⟩ | haside
  · obtain ⟨c', hlives, -, -, -, hkeeps⟩ := connStep_spec hstep
    rw [hlives] at hd
    rcases List.mem_or_eq_of_mem_set hd with hd | rfl
    · exact h.2 d hd
    · exact (hkeeps h.1).2 (h.2 c (List.mem_of_getElem? hi))
  · rcases List.mem_append.mp hd with hd | hd
    · exact h.2 d hd
    · rw [List.mem_singleton.mp hd]
      rfl
  · exact h.2 d (haside.lives ▸ hd)

/-- A call of Close returns at the end of its wait. -/
theorem returned_cases (hstep : serverStep cfg s a = some s') (h : .returned ∈ s'.closers) :
    .returned ∈ s.closers ∨ ∃ k, a = .closer k ∧ s.closers[k]? = some .waiting ∧ s.wg = 0 := by
  rcases serverStep_cases hstep with ⟨i, c, -, -, hstep⟩ | ⟨l, loops, rfl⟩ | haside
  · obtain ⟨c', -, -, -, hclosers, -⟩ := connStep_spec hstep
    exact .inl (hclosers ▸ h)
  · exact .inl h
  · rcases haside.closers .returned h with h | h | ⟨h, -⟩ | ⟨-, hk⟩
    · exact .inl h
    · cases h
    · cases h
    · exact .inr hk

/-- When the wait ends and no connection waits to be counted, every goroutine has ended. -/
theorem quiet_of_wait (h : ServerInv cfg s) {k : Nat} (hk : s.closers[k]? = some .waiting) (hwg : s.wg = 0)
    (hadded : ∀ c ∈ s.lives, c.pc ≠ .added) : Quiet s := by
  refine ⟨h.closers .waiting (List.mem_of_getElem? hk) (by simp), fun c hc => ?_⟩
  have hzero : (s.lives.countP fun c => c.pc.isCounted) = 0 := h.wg ▸ hwg
  rw [ConnPc.active_eq_isCounted (hadded c hc)]
  simpa using List.countP_eq_zero.mp hzero c hc

/-- In a run whose waits are clean, a call of Close has returned only when every goroutine has ended. -/
theorem quiet_of_returned {as : List ServerAction} (hrun : Go.run (serverStep cfg) {} as = some s)
    (hclean : AllSteps (serverStep cfg) CleanWait {} as) (hreturned : .returned ∈ s.closers) : Quiet s := by
  have hall : ServerInv cfg s ∧ (.returned ∈ s.closers → Quiet s) := by
    refine run_invariant_of (P := fun s => ServerInv cfg s ∧ (.returned ∈ s.closers → Quiet s)) ?_
      ⟨ServerInv.init, nofun⟩ hclean hrun
    rintro s a s' ⟨hinv, hquiet⟩ hwait hstep
    refine ⟨hinv.step hstep, fun hreturned => ?_⟩
    rcases returned_cases hstep hreturned with hbefore | ⟨k, rfl, hk, hwg⟩
    · exact (hquiet hbefore).step hstep
    · exact (quiet_of_wait hinv hk hwg (hwait hk)).step hstep
  exact hall.2 hreturned

end Close

/-- No goroutine of a connection runs, and none starts afterwards. -/
def NoneRuns (cfg : ServerConfig) (s : ServerState) : Prop :=
  ∀ bs s', Go.run (serverStep cfg) s bs = some s' → ∀ c ∈ s'.lives, c.pc.inGoroutine = false

theorem Quiet.noneRuns {cfg : ServerConfig} {s : ServerState} (h : Quiet s) : NoneRuns cfg s := by
  intro bs s' hlater c hc
  have hquiet : Quiet s' := run_invariant (fun _ _ _ h hstep => h.step hstep) h hlater
  exact ConnPc.inGoroutine_of_active (hquiet.2 c hc)

/-- A connection that is added can start its goroutine, whatever calls of Close have returned. -/
theorem added_starts (cfg : ServerConfig) {s : ServerState} {i : Nat} {c : ServerConn} (hi : s.lives[i]? = some c)
    (hpc : c.pc = .added) :
    ∃ s' c', Go.run (serverStep cfg) s [.conn i, .conn i] = some s' ∧ s'.lives[i]? = some c' ∧
      c'.pc.inGoroutine = true := by
  have hlt : i < s.lives.length := (List.getElem?_eq_some_iff.mp hi).1
  obtain ⟨loop, pc, released⟩ := c
  cases hpc
  let s₁ : ServerState := { s.move i { loop, pc := .added, released } .counted with wg := s.wg + 1 }
  let c₁ : ServerConn := { loop, pc := .counted, released }
  have hcounted : serverStep cfg s (.conn i) = some s₁ := by
    rw [serverStep, hi]
    rfl
  have hself : s₁.lives[i]? = some c₁ := List.getElem?_set_self hlt
  have hstarted : serverStep cfg s₁ (.conn i) = some ((s₁.move i c₁ .running).resume loop .accepting) := by
    rw [serverStep, hself]
    rfl
  refine ⟨_, { c₁ with pc := .running }, run_cons.mpr ⟨s₁, hcounted, run_cons.mpr ⟨_, hstarted, run_nil _⟩⟩, ?_, rfl⟩
  exact List.getElem?_set_self (List.getElem?_eq_some_iff.mp hself).1

theorem NoneRuns.not_added {cfg : ServerConfig} {s : ServerState} {c : ServerConn} (h : NoneRuns cfg s)
    (hc : c ∈ s.lives) : c.pc ≠ .added := by
  intro hpc
  obtain ⟨i, hi⟩ := List.mem_iff_getElem?.mp hc
  obtain ⟨s', c', hrun, hi', hgoroutine⟩ := added_starts cfg hi hpc
  exact Bool.false_ne_true ((h _ s' hrun c' (List.mem_of_getElem? hi')).symm.trans hgoroutine)

/-- The end of a wait changes nothing but the call of Close. -/
theorem closer_waiting {cfg : ServerConfig} {s s' : ServerState} {k : Nat} (hk : s.closers[k]? = some .waiting)
    (hstep : serverStep cfg s (.closer k) = some s') : .returned ∈ s'.closers ∧ s'.lives = s.lives := by
  rw [serverStep, hk, Option.bind_some, ServerState.closerStep] at hstep
  split at hstep
  · cases hstep
    exact ⟨List.mem_of_getElem? (List.getElem?_set_self (List.getElem?_eq_some_iff.mp hk).1), rfl⟩
  · cases hstep

/-- In every interleaving: no wait of a call of Close ends while a connection is added and not yet counted exactly if
    at every point at which a call of Close has returned, no goroutine of a connection runs, and none can start
    afterwards. -/
theorem close_waits_for_goroutines_iff (cfg : ServerConfig) {as : List ServerAction} {s : ServerState}
    (hrun : Go.run (serverStep cfg) {} as = some s) :
    (∀ as₁ as₂ s₁, as = as₁ ++ as₂ → Go.run (serverStep cfg) {} as₁ = some s₁ → .returned ∈ s₁.closers →
        NoneRuns cfg s₁) ↔
      AllSteps (serverStep cfg) CleanWait {} as := by
  constructor
  · intro hnone
    refine allSteps_iff.mpr fun as₁ a as₂ s₁ hsplit hrun₁ => ?_
    cases a with
    | closer k =>
      intro hk
      obtain ⟨s₁', hrun₁', hrest⟩ := run_append.mp (hsplit ▸ hrun)
      obtain rfl := Option.some.inj (hrun₁.symm.trans hrun₁')
      obtain ⟨s₂, hstep, -⟩ := run_cons.mp hrest
      obtain ⟨hreturned, hlives⟩ := closer_waiting hk hstep
      have hnone₂ := hnone (as₁ ++ [.closer k]) as₂ s₂ (by simp [hsplit])
        (run_append.mpr ⟨s₁, hrun₁, run_cons.mpr ⟨s₂, hstep, run_nil s₂⟩⟩) hreturned
      exact fun c hc => hnone₂.not_added (hlives ▸ hc)
    | serve | loop | conn | close => trivial
  · rintro hclean as₁ as₂ s₁ rfl hrun₁ hreturned
    refine (quiet_of_returned hrun₁ ?_ hreturned).noneRuns
    exact allSteps_iff.mpr fun bs a cs s₂ hsplit hrun₂ =>
      allSteps_iff.mp hclean bs a (cs ++ as₂) s₂ (by simp [hsplit]) hrun₂

/-- Close is called while a connection is served, and waits for its goroutine. -/
def servedRun : List ServerAction :=
  [.serve, .loop 0 .conn, .loop 0 .conn, .conn 0, .conn 0, .conn 0, .conn 0, .close, .closer 0, .conn 0, .conn 0,
    .conn 0, .conn 0, .conn 0, .closer 0]

def servedState : ServerState where
  closed := true
  shut := [0, 0]
  lives := [{ loop := 0, pc := .done, released := 1 }]
  loops := [{ pc := .accepting, tracked := true, opened := false }]
  closers := [.returned]

theorem close_waits_for_goroutines_served :
    Go.run (serverStep defaultConfig) {} servedRun = some servedState ∧ .returned ∈ servedState.closers ∧
      NoneRuns defaultConfig servedState := by
  have hrun : Go.run (serverStep defaultConfig) {} servedRun = some servedState := by decide +kernel
  have hclean : AllSteps (serverStep defaultConfig) CleanWait {} servedRun := by decide +kernel
  have hreturned : .returned ∈ servedState.closers := by decide
  refine ⟨hrun, hreturned, ?_⟩
  exact (close_waits_for_goroutines_iff defaultConfig hrun).mpr hclean servedRun [] servedState (by simp) hrun hreturned

/-- Close is called while a connection is added and not yet counted. -/
def lateRun : List ServerAction :=
  [.serve, .loop 0 .conn, .loop 0 .conn, .conn 0, .conn 0, .close, .closer 0, .closer 0]

def lateState : ServerState where
  closed := true
  slots := 1
  conns := [0]
  shut := [0]
  lives := [{ loop := 0, pc := .added }]
  loops := [{ pc := .handling, tracked := true, opened := false }]
  closers := [.returned]

/-- Close has returned without waiting, and then the goroutine is counted and started. -/
theorem close_returns_before_goroutine :
    Go.run (serverStep defaultConfig) {} lateRun = some lateState ∧ .returned ∈ lateState.closers ∧
      ((Go.run (serverStep defaultConfig) lateState [.conn 0, .conn 0]).map fun s => s.lives.map ServerConn.pc) =
        some [.running] := by
  decide +kernel

end S7Comm
