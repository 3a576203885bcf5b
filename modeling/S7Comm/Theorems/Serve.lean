import S7Comm.Server.Serve

/-! Slots, the set of connections and the wait group of the server, over every interleaving of its threads. -/

namespace S7Comm
open Go

/-! ### Where a connection is -/

namespace ConnPc

/-- Between admission and giving back the slot. -/
def holdsSlot : ConnPc → Bool
  | admitted | rejected | added | counted | running | served | removed | disposed => true
  | _ => false

/-- Between the increment and the decrement of the wait group. -/
def isCounted : ConnPc → Bool
  | counted | running | served | removed | disposed | freed => true
  | _ => false

/-- Added to the set and not yet removed. -/
def inSet : ConnPc → Bool
  | added | counted | running | served => true
  | _ => false

/-- Past giving back the slot. -/
def gaveBack : ConnPc → Bool
  | unslotted | dropped | freed | done => true
  | _ => false

/-- Past closing the connection. -/
def isShut : ConnPc → Bool
  | turnedAway | dropped | disposed | freed | done => true
  | _ => false

/-- Added to the set, and its goroutine has not ended. -/
def active : ConnPc → Bool
  | added | counted | running | served | removed | disposed | freed => true
  | _ => false

/-- The goroutine of the connection has started and not ended. -/
def inGoroutine : ConnPc → Bool
  | running | served | removed | disposed | freed => true
  | _ => false

/-- No step is left. -/
def ended : ConnPc → Bool
  | turnedAway | dropped | done => true
  | _ => false

/-- The steps that are left, at most. -/
def left : ConnPc → Nat
  | accepted => 9
  | admitted => 8
  | added => 7
  | counted => 6
  | running => 5
  | served => 4
  | removed => 3
  | disposed | rejected => 2
  | freed | unslotted | refused => 1
  | turnedAway | dropped | done => 0

variable {pc : ConnPc}

theorem isShut_of_ended (h : pc.ended = true) : pc.isShut = true := by
  cases pc <;> first | rfl | cases h

theorem gaveBack_of_ended (h : pc.ended = true) (hne : pc ≠ .turnedAway) : pc.gaveBack = true := by
  cases pc <;> first | rfl | exact absurd rfl hne | cases h

theorem active_eq_isCounted (hne : pc ≠ .added) : pc.active = pc.isCounted := by
  cases pc <;> first | rfl | exact absurd rfl hne

theorem inGoroutine_of_active (h : pc.active = false) : pc.inGoroutine = false := by
  cases pc <;> first | rfl | cases h

end ConnPc

/-! ### The invariant -/

/-- What holds in every reachable state. -/
structure ServerInv (cfg : ServerConfig) (s : ServerState) : Prop where
  /-- The channel holds one token for each connection that has a slot. -/
  slots : s.slots = s.lives.countP fun c => c.pc.holdsSlot
  limit : s.slots ≤ cfg.maxConnections
  wg : s.wg = s.lives.countP fun c => c.pc.isCounted
  conns : ∀ i, i ∈ s.conns ↔ ∃ c, s.lives[i]? = some c ∧ c.pc.inSet = true
  nodup : s.conns.Nodup
  released : ∀ c ∈ s.lives, c.released = c.pc.gaveBack.toNat
  shut : ∀ (i : Nat) c, s.lives[i]? = some c → c.pc.isShut = true → i ∈ s.shut
  /-- A call of Close is past its section only when the server is closed. -/
  closers : ∀ pc ∈ s.closers, pc ≠ .called → s.closed = true

section Inv
variable {cfg : ServerConfig} {s s' : ServerState} {i : Nat} {c c' : ServerConn}

theorem ServerInv.init : ServerInv cfg {} where
  slots := rfl
  limit := Nat.zero_le _
  wg := rfl
  conns := by simp
  nodup := List.nodup_nil
  released := by simp
  shut := by simp
  closers := by simp

/-- A step of connection `i`, described by what it does to the shared state. -/
theorem ServerInv.moved (h : ServerInv cfg s) (hi : s.lives[i]? = some c) (hlives : s'.lives = s.lives.set i c')
    (hslots : s'.slots + c.pc.holdsSlot.toNat = s.slots + c'.pc.holdsSlot.toNat)
    (hlimit : s'.slots ≤ cfg.maxConnections)
    (hwg : s'.wg + c.pc.isCounted.toNat = s.wg + c'.pc.isCounted.toNat)
    (hconns : ∀ j, j ∈ s'.conns ↔ if j = i then c'.pc.inSet = true else j ∈ s.conns) (hnodup : s'.conns.Nodup)
    (hreleased : c'.released = c'.pc.gaveBack.toNat) (hkept : ∀ j ∈ s.shut, j ∈ s'.shut)
    (hshut : c'.pc.isShut = true → i ∈ s'.shut) (hclosers : s'.closers = s.closers) (hclosed : s'.closed = s.closed) :
    ServerInv cfg s' := by
  have hlt : i < s.lives.length := (List.getElem?_eq_some_iff.mp hi).1
  have hself : s'.lives[i]? = some c' := by rw [hlives, List.getElem?_set_self hlt]
  have hother : ∀ j, j ≠ i → s'.lives[j]? = s.lives[j]? := by
    intro j hj
    rw [hlives, List.getElem?_set_ne (Ne.symm hj)]
  refine ⟨?_, hlimit, ?_, fun j => ?_, hnodup, ?_, fun j d hj hd => ?_, by rw [hclosers, hclosed]; exact h.closers⟩
  · have hcount := countP_set_add (p := fun c => c.pc.holdsSlot) hi c'
    have := h.slots
    rw [hlives]
    omega
  · have hcount := countP_set_add (p := fun c => c.pc.isCounted) hi c'
    have := h.wg
    rw [hlives]
    omega
  · rw [hconns j]
    by_cases hj : j = i
    · subst hj
      simp [hself]
    · rw [if_neg hj, hother j hj]
      exact h.conns j
  · intro d hd
    rw [hlives] at hd
    rcases List.mem_or_eq_of_mem_set hd with hd | rfl
    · exact h.released d hd
    · exact hreleased
  · by_cases hji : j = i
    · subst hji
      rw [hself] at hj
      cases hj
      exact hshut hd
    · rw [hother j hji] at hj
      exact hkept j (h.shut j d hj hd)

/-- A step that does not take connection `i` into the set or out of it. -/
theorem ServerInv.conns_same (h : ServerInv cfg s) (hi : s.lives[i]? = some c) {pc : ConnPc}
    (hsame : c.pc.inSet = pc.inSet) (j : Nat) : j ∈ s.conns ↔ if j = i then pc.inSet = true else j ∈ s.conns := by
  split
  · rename_i hj
    rw [hj, h.conns i, hi, ← hsame]
    simp
  · rfl

/-- Giving back the slot: the connection has one, so the receive finds a token. -/
theorem ServerInv.gaveBack (h : ServerInv cfg s) (hi : s.lives[i]? = some c) {pc : ConnPc}
    (hholds : c.pc.holdsSlot = true) (hfree : pc.holdsSlot = false) (hcounted : c.pc.isCounted = pc.isCounted)
    (hset : c.pc.inSet = pc.inSet) (hbefore : c.pc.gaveBack = false) (hafter : pc.gaveBack = true)
    (hshut : pc.isShut = true → c.pc.isShut = true) : ∃ s', s.giveBack i c pc = some s' ∧ ServerInv cfg s' := by
  have hmem : c ∈ s.lives := List.mem_of_getElem? hi
  have hpos : s.slots > 0 := by
    rw [h.slots]
    exact List.countP_pos_iff.mpr ⟨c, hmem, hholds⟩
  have hrel := h.released c hmem
  have hlim := h.limit
  rw [hbefore] at hrel
  refine ⟨_, if_pos hpos, h.moved hi rfl ?_ (by dsimp only; omega) ?_ (h.conns_same hi hset) h.nodup ?_ (fun _ hj => hj)
    (fun hs => h.shut i c hi (hshut hs)) rfl rfl⟩
  · simp only [hholds, hfree, Bool.toNat_true, Bool.toNat_false]
    omega
  · simp only [hcounted]
  · simp only [hafter, hrel, Bool.toNat_true, Bool.toNat_false]

/-- A step that takes no slot, no count and no place in the set, and gives none back. -/
theorem ServerInv.movedOn (h : ServerInv cfg s) (hi : s.lives[i]? = some c) {pc : ConnPc}
    (hlives : s'.lives = s.lives.set i { c with pc }) (hslots : s'.slots = s.slots) (hwg : s'.wg = s.wg)
    (hconns : s'.conns = s.conns) (hholds : c.pc.holdsSlot = pc.holdsSlot) (hcounted : c.pc.isCounted = pc.isCounted)
    (hset : c.pc.inSet = pc.inSet) (hback : c.pc.gaveBack = pc.gaveBack) (hkept : ∀ j ∈ s.shut, j ∈ s'.shut)
    (hshut : pc.isShut = true → i ∈ s'.shut) (hclosers : s'.closers = s.closers) (hclosed : s'.closed = s.closed) :
    ServerInv cfg s' := by
  refine h.moved hi hlives ?_ (hslots ▸ h.limit) ?_ ?_ (hconns ▸ h.nodup) ?_ hkept hshut hclosers hclosed
  · rw [hslots, hholds]
  · rw [hwg, hcounted]
  · rw [hconns]
    exact h.conns_same hi hset
  · rw [← hback]
    exact h.released c (List.mem_of_getElem? hi)

theorem ServerInv.notIn (h : ServerInv cfg s) (hi : s.lives[i]? = some c) (hset : c.pc.inSet = false) : i ∉ s.conns := by
  intro hmem
  obtain ⟨d, hd, hin⟩ := (h.conns i).mp hmem
  rw [hi] at hd
  cases hd
  rw [hset] at hin
  cases hin

/-- Every step of a connection keeps the invariant, and until it has ended there is one. -/
theorem ServerInv.connStep (h : ServerInv cfg s) (hi : s.lives[i]? = some c) (hended : c.pc.ended = false) :
    ∃ s', s.connStep cfg.maxConnections i c = some s' ∧ ServerInv cfg s' := by
  have hrel := h.released c (List.mem_of_getElem? hi)
  have hlimit := h.limit
  have hnew : ∀ j ∈ s.shut, j ∈ i :: s.shut := fun j hj => List.mem_cons_of_mem i hj
  obtain ⟨loop, pc, released⟩ := c
  unfold ServerState.connStep
  cases pc with
  | accepted =>
    dsimp only
    split
    · exact ⟨_, rfl, h.moved hi rfl rfl (by dsimp only; omega) rfl (h.conns_same hi rfl) h.nodup hrel (fun _ hj => hj) nofun
        rfl rfl⟩
    · exact ⟨_, rfl, h.movedOn hi rfl rfl rfl rfl rfl rfl rfl rfl (fun _ hj => hj) nofun rfl rfl⟩
  | refused =>
    exact ⟨_, rfl, h.movedOn hi rfl rfl rfl rfl rfl rfl rfl rfl hnew (fun _ => List.mem_cons_self) rfl rfl⟩
  | admitted =>
    dsimp only
    split
    · exact ⟨_, rfl, h.movedOn hi rfl rfl rfl rfl rfl rfl rfl rfl (fun _ hj => hj) nofun rfl rfl⟩
    · refine ⟨_, rfl, h.moved hi rfl rfl hlimit rfl (fun j => ?_) (List.nodup_cons.mpr ⟨h.notIn hi rfl, h.nodup⟩) hrel
        (fun _ hj => hj) nofun rfl rfl⟩
      by_cases hj : j = i <;> simp [hj, ConnPc.inSet]
  | rejected => exact h.gaveBack hi rfl rfl rfl rfl rfl rfl nofun
  | unslotted =>
    exact ⟨_, rfl, h.movedOn hi rfl rfl rfl rfl rfl rfl rfl rfl hnew (fun _ => List.mem_cons_self) rfl rfl⟩
  | added =>
    exact ⟨_, rfl, h.moved hi rfl rfl hlimit rfl (h.conns_same hi rfl) h.nodup hrel (fun _ hj => hj) nofun rfl rfl⟩
  | counted => exact ⟨_, rfl, h.movedOn hi rfl rfl rfl rfl rfl rfl rfl rfl (fun _ hj => hj) nofun rfl rfl⟩
  | running => exact ⟨_, rfl, h.movedOn hi rfl rfl rfl rfl rfl rfl rfl rfl (fun _ hj => hj) nofun rfl rfl⟩
  | served =>
    refine ⟨_, rfl, h.moved hi rfl rfl hlimit rfl (fun j => ?_) (h.nodup.filter _) hrel (fun _ hj => hj) nofun rfl rfl⟩
    by_cases hj : j = i <;> simp [hj, ConnPc.inSet]
  | removed =>
    exact ⟨_, rfl, h.movedOn hi rfl rfl rfl rfl rfl rfl rfl rfl hnew (fun _ => List.mem_cons_self) rfl rfl⟩
  | disposed => exact h.gaveBack hi rfl rfl rfl rfl rfl rfl fun _ => rfl
  | freed =>
    have hpos : 0 < s.wg := by
      rw [h.wg]
      exact List.countP_pos_iff.mpr ⟨_, List.mem_of_getElem? hi, rfl⟩
    exact ⟨_, rfl, h.moved hi rfl rfl hlimit (Nat.sub_add_cancel hpos) (h.conns_same hi rfl) h.nodup hrel (fun _ hj => hj)
      (fun _ => h.shut i _ hi rfl) rfl rfl⟩
  | turnedAway => cases hended
  | dropped => cases hended
  | done => cases hended

theorem connStep_ended {maxConnections : Nat} (h : c.pc.ended = true) : s.connStep maxConnections i c = none := by
  obtain ⟨loop, pc, released⟩ := c
  cases pc <;> first | rfl | cases h

/-! ### The other threads -/

/-- A step of an accept loop changes the loops and at most accepts a connection. -/
theorem loopStep_spec {l : Nat} {loop : ServeLoop} {r : AcceptResult} (h : s.loopStep l loop r = some s') :
    ∃ loops, s' = { s with loops } ∨ s' = { s with loops, lives := s.lives ++ [{ loop := l }] } := by
  unfold ServerState.loopStep at h
  cases hpc : loop.pc with
  | entering =>
    simp only [hpc] at h
    split at h <;> cases h <;> exact ⟨_, .inl rfl⟩
  | accepting =>
    simp only [hpc] at h
    cases r with
    | conn =>
      simp only at h
      split at h
      · cases h
        exact ⟨_, .inr rfl⟩
      · cases h
    | err ctxEnded timeout => cases ctxEnded <;> cases h <;> exact ⟨_, .inl rfl⟩
  | handling =>
    simp only [hpc] at h
    cases h
  | checking timeout =>
    simp only [hpc] at h
    split at h
    · cases h
      exact ⟨_, .inl rfl⟩
    · split at h <;> cases h <;> exact ⟨_, .inl rfl⟩
  | leaving =>
    simp only [hpc] at h
    cases h
    exact ⟨_, .inl rfl⟩
  | untracked =>
    simp only [hpc] at h
    cases h
    exact ⟨_, .inl rfl⟩
  | returned =>
    simp only [hpc] at h
    cases h

theorem ServerInv.accepted (h : ServerInv cfg s) (l : Nat) (loops : List ServeLoop) :
    ServerInv cfg { s with loops, lives := s.lives ++ [{ loop := l }] } := by
  have hnew : ∀ (i : Nat) c, (s.lives ++ [{ loop := l }])[i]? = some c →
      s.lives[i]? = some c ∨ c = { loop := l } := by
    intro i c hi
    rw [List.getElem?_append] at hi
    split at hi
    · exact .inl hi
    · exact .inr (List.mem_singleton.mp (List.mem_of_getElem? hi))
  refine ⟨?_, h.limit, ?_, fun i => ?_, h.nodup, ?_, ?_, h.closers⟩
  · rw [h.slots, List.countP_append]
    rfl
  · rw [h.wg, List.countP_append]
    rfl
  · rw [h.conns i]
    constructor
    · rintro ⟨c, hi, hset⟩
      refine ⟨c, ?_, hset⟩
      rw [List.getElem?_append_left (List.getElem?_eq_some_iff.mp hi).1]
      exact hi
    · rintro ⟨c, hi, hset⟩
      rcases hnew i c hi with hi | rfl
      · exact ⟨c, hi, hset⟩
      · cases hset
  · intro c hc
    rcases List.mem_append.mp hc with hc | hc
    · exact h.released c hc
    · rw [List.mem_singleton.mp hc]
      rfl
  · intro i c hi hshut
    rcases hnew i c hi with hi | rfl
    · exact h.shut i c hi hshut
    · cases hshut

/-- A step of a call of Close: its section, or the end of its wait. -/
theorem closerStep_spec {k : Nat} {pc : CloserPc} (h : s.closerStep k pc = some s') :
    (pc = .called ∧ ∃ loops, s' = { s with
      closed := true, loops, shut := s'.shut, closers := s.closers.set k .waiting } ∧ ∀ j ∈ s.shut, j ∈ s'.shut) ∨
    (pc = .waiting ∧ s.wg = 0 ∧ s' = { s with closers := s.closers.set k .returned }) := by
  unfold ServerState.closerStep at h
  cases pc with
  | called =>
    dsimp only at h
    split at h
    · rename_i hclosed
      cases h
      refine .inl ⟨rfl, s.loops, ?_, fun _ hj => hj⟩
      rw [← hclosed]
    · cases h
      exact .inl ⟨rfl, _, rfl, fun j hj => List.mem_append_right _ hj⟩
  | waiting =>
    dsimp only at h
    split at h
    · cases h
      exact .inr ⟨rfl, ‹_›, rfl⟩
    · cases h
  | returned => cases h

/-- An action that moves no connection: it may change the loops and the calls of Close, and close connections. A call of
    Close returns at the end of its wait. -/
structure Aside (a : ServerAction) (s s' : ServerState) : Prop where
  lives : s'.lives = s.lives
  slots : s'.slots = s.slots
  wg : s'.wg = s.wg
  conns : s'.conns = s.conns
  shut : ∀ j ∈ s.shut, j ∈ s'.shut
  closed : s.closed = true → s'.closed = true
  closers : ∀ pc ∈ s'.closers, pc ∈ s.closers ∨ pc = .called ∨ pc = .waiting ∧ s'.closed = true ∨
    pc = .returned ∧ ∃ k, a = .closer k ∧ s.closers[k]? = some .waiting ∧ s.wg = 0

/-- What an action can do: a connection takes a step, a connection is accepted, or none is moved. -/
theorem serverStep_cases {a : ServerAction} (hstep : serverStep cfg s a = some s') :
    (∃ i c, a = .conn i ∧ s.lives[i]? = some c ∧ s.connStep cfg.maxConnections i c = some s') ∨
    (∃ l loops, s' = { s with loops, lives := s.lives ++ [{ loop := l }] }) ∨ Aside a s s' := by
  cases a with
  | serve =>
    cases hstep
    exact .inr (.inr ⟨rfl, rfl, rfl, rfl, fun _ hj => hj, id, fun _ hpc => .inl hpc⟩)
  | loop l r =>
    obtain ⟨loop, -, hstep⟩ := Option.bind_eq_some_iff.mp hstep
    obtain ⟨loops, rfl | rfl⟩ := loopStep_spec hstep
    · exact .inr (.inr ⟨rfl, rfl, rfl, rfl, fun _ hj => hj, id, fun _ hpc => .inl hpc⟩)
    · exact .inr (.inl ⟨l, loops, rfl⟩)
  | conn i =>
    obtain ⟨c, hi, hstep⟩ := Option.bind_eq_some_iff.mp hstep
    exact .inl ⟨i, c, rfl, hi, hstep⟩
  | close =>
    cases hstep
    refine .inr (.inr ⟨rfl, rfl, rfl, rfl, fun _ hj => hj, id, fun pc hpc => ?_⟩)
    rcases List.mem_append.mp hpc with hpc | hpc
    · exact .inl hpc
    · exact .inr (.inl (List.mem_singleton.mp hpc))
  | closer k =>
    obtain ⟨pc, hk, hstep⟩ := Option.bind_eq_some_iff.mp hstep
    refine .inr (.inr ?_)
    rcases closerStep_spec hstep with ⟨-, loops, hs', hkept⟩ | ⟨rfl, hwg, rfl⟩
    · rw [hs']
      refine ⟨rfl, rfl, rfl, rfl, hkept, fun _ => rfl, fun pc hpc => ?_⟩
      rcases List.mem_or_eq_of_mem_set hpc with hpc | hpc
      · exact .inl hpc
      · exact .inr (.inr (.inl ⟨hpc, rfl⟩))
    · refine ⟨rfl, rfl, rfl, rfl, fun _ hj => hj, id, fun pc hpc => ?_⟩
      rcases List.mem_or_eq_of_mem_set hpc with hpc | hpc
      · exact .inl hpc
      · exact .inr (.inr (.inr ⟨hpc, k, rfl, hk, hwg⟩))

theorem ServerInv.aside (h : ServerInv cfg s) {a : ServerAction} (haside : Aside a s s') : ServerInv cfg s' := by
  refine ⟨?_, ?_, ?_, ?_, ?_, ?_, ?_, fun pc hpc hne => ?_⟩
  · rw [haside.slots, haside.lives]
    exact h.slots
  · rw [haside.slots]
    exact h.limit
  · rw [haside.wg, haside.lives]
    exact h.wg
  · rw [haside.conns, haside.lives]
    exact h.conns
  · rw [haside.conns]
    exact h.nodup
  · rw [haside.lives]
    exact h.released
  · rw [haside.lives]
    exact fun i c hi hshut => haside.shut i (h.shut i c hi hshut)
  · rcases haside.closers pc hpc with hpc | hpc | ⟨-, hclosed⟩ | ⟨-, k, -, hk, -⟩
    · exact haside.closed (h.closers pc hpc hne)
    · exact absurd hpc hne
    · exact hclosed
    · exact haside.closed (h.closers .waiting (List.mem_of_getElem? hk) nofun)

/-- Every action keeps the invariant. -/
theorem ServerInv.step (h : ServerInv cfg s) {a : ServerAction} (hstep : serverStep cfg s a = some s') :
    ServerInv cfg s' := by
  rcases serverStep_cases hstep with ⟨i, c, -, hi, hstep⟩ | ⟨l, loops, rfl⟩ | haside
  · cases hended : c.pc.ended with
    | true =>
      rw [connStep_ended hended] at hstep
      cases hstep
    | false =>
      obtain ⟨s₁, hstep', hinv⟩ := h.connStep hi hended
      rw [hstep'] at hstep
      cases hstep
      exact hinv
  · exact h.accepted l loops
  · exact h.aside haside

theorem ServerInv.run {as : List ServerAction} (h : Go.run (serverStep cfg) {} as = some s) : ServerInv cfg s :=
  run_invariant (fun _ _ _ hs hstep => hs.step hstep) ServerInv.init h

/-! ### The life of a connection -/

/-- A step of a connection moves that connection only, nearer to its end. A closed server does not take it into its
    set, and so does not start its goroutine. -/
theorem connStep_spec {maxConnections : Nat} (hstep : s.connStep maxConnections i c = some s') :
    ∃ c', s'.lives = s.lives.set i c' ∧ c'.pc.left < c.pc.left ∧ s'.closed = s.closed ∧ s'.closers = s.closers ∧
      (s.closed = true → (∀ j ∈ s'.conns, j ∈ s.conns) ∧ (c.pc.active = false → c'.pc.active = false)) := by
  obtain ⟨loop, pc, released⟩ := c
  unfold ServerState.connStep ServerState.giveBack at hstep
  cases pc with
  | accepted =>
    dsimp only at hstep
    split at hstep <;> cases hstep <;>
      exact ⟨_, rfl, by simp [ConnPc.left], rfl, rfl, fun _ => ⟨fun _ hj => hj, fun _ => rfl⟩⟩
  | admitted =>
    dsimp only at hstep
    split at hstep <;> cases hstep
    · exact ⟨_, rfl, by simp [ConnPc.left], rfl, rfl, fun _ => ⟨fun _ hj => hj, fun _ => rfl⟩⟩
    · rename_i hopen
      exact ⟨_, rfl, by simp [ConnPc.left], rfl, rfl, fun hclosed => absurd hclosed hopen⟩
  | rejected =>
    dsimp only at hstep
    split at hstep <;> cases hstep
    exact ⟨_, rfl, by simp [ConnPc.left], rfl, rfl, fun _ => ⟨fun _ hj => hj, fun _ => rfl⟩⟩
  | disposed =>
    dsimp only at hstep
    split at hstep <;> cases hstep
    exact ⟨_, rfl, by simp [ConnPc.left], rfl, rfl, fun _ => ⟨fun _ hj => hj, nofun⟩⟩
  | served =>
    cases hstep
    exact ⟨_, rfl, by simp [ConnPc.left], rfl, rfl, fun _ => ⟨fun _ hj => (List.mem_filter.mp hj).1, nofun⟩⟩
  | refused | unslotted =>
    cases hstep
    exact ⟨_, rfl, by simp [ConnPc.left], rfl, rfl, fun _ => ⟨fun _ hj => hj, fun _ => rfl⟩⟩
  | added | counted | running | removed | freed =>
    cases hstep
    exact ⟨_, rfl, by simp [ConnPc.left], rfl, rfl, fun _ => ⟨fun _ hj => hj, nofun⟩⟩
  | turnedAway | dropped | done => cases hstep

/-- Only its own steps move a connection. -/
theorem serverStep_other {a : ServerAction} (hstep : serverStep cfg s a = some s') (hi : s.lives[i]? = some c)
    (ha : a ≠ .conn i) : s'.lives[i]? = some c := by
  rcases serverStep_cases hstep with ⟨j, d, rfl, -, hstep⟩ | ⟨l, loops, rfl⟩ | haside
  · obtain ⟨d', hlives, -⟩ := connStep_spec hstep
    have hne : j ≠ i := fun h => ha (by rw [h])
    rw [hlives, List.getElem?_set_ne hne]
    exact hi
  · rw [List.getElem?_append_left (List.getElem?_eq_some_iff.mp hi).1]
    exact hi
  · rw [haside.lives]
    exact hi

/-- A closed server stays closed, and adds no connection to its set. -/
theorem serverStep_closed {a : ServerAction} (hstep : serverStep cfg s a = some s') (hclosed : s.closed = true) :
    s'.closed = true ∧ ∀ j ∈ s'.conns, j ∈ s.conns := by
  rcases serverStep_cases hstep with ⟨i, c, -, -, hstep⟩ | ⟨l, loops, rfl⟩ | haside
  · obtain ⟨c', -, -, hsame, -, hkeeps⟩ := connStep_spec hstep
    exact ⟨hsame.trans hclosed, (hkeeps hclosed).1⟩
  · exact ⟨hclosed, fun _ hj => hj⟩
  · exact ⟨haside.closed hclosed, fun j hj => haside.conns ▸ hj⟩

end Inv

/-- Slots over every interleaving of accept loops, connections and calls of Close. The channel holds one token for each
    connection between admission and giving back its slot, so that at most `MaxConnections` are served at once. Every
    connection gives back a slot at most once; at its end it is closed, and has given back its slot exactly once if
    it was admitted; until then its next step is possible and brings it nearer to its end, and no other action
    moves it. The set holds the connections that were added and not removed, and none is added to a closed
    server. -/
theorem connection_slot_accounting (cfg : ServerConfig) {as : List ServerAction} {s : ServerState}
    (h : Go.run (serverStep cfg) {} as = some s) :
    (s.slots = s.lives.countP fun c => c.pc.holdsSlot) ∧ s.slots ≤ cfg.maxConnections ∧
    (s.lives.countP fun c => c.pc == .running) ≤ cfg.maxConnections ∧
    (∀ (i : Nat) c, s.lives[i]? = some c → c.released = c.pc.gaveBack.toNat ∧
      (c.pc.ended = true → i ∈ s.shut ∧ (c.pc ≠ .turnedAway → c.released = 1)) ∧
      (c.pc.ended = false → ∃ s' c', serverStep cfg s (.conn i) = some s' ∧ s'.lives[i]? = some c' ∧
        c'.pc.left < c.pc.left)) ∧
    (∀ i, i ∈ s.conns ↔ ∃ c, s.lives[i]? = some c ∧ c.pc.inSet = true) ∧ s.conns.Nodup ∧
    ∀ a s', serverStep cfg s a = some s' →
      (s.closed = true → s'.closed = true ∧ ∀ j ∈ s'.conns, j ∈ s.conns) ∧
      ∀ (i : Nat) c, s.lives[i]? = some c → a ≠ .conn i → s'.lives[i]? = some c := by
  have hinv := ServerInv.run h
  have hrunning : (s.lives.countP fun c => c.pc == .running) ≤ s.slots := by
    rw [hinv.slots]
    refine List.countP_mono_left fun c _ hc => ?_
    rw [beq_iff_eq.mp hc]
    rfl
  refine ⟨hinv.slots, hinv.limit, hrunning.trans hinv.limit, fun i c hi => ?_, hinv.conns, hinv.nodup, fun a s' hstep => ?_⟩
  · have hrel := hinv.released c (List.mem_of_getElem? hi)
    refine ⟨hrel, fun hended => ⟨hinv.shut i c hi (ConnPc.isShut_of_ended hended), fun hne => ?_⟩, fun hended => ?_⟩
    · rw [hrel, ConnPc.gaveBack_of_ended hended hne]
      rfl
    · obtain ⟨s', hstep, -⟩ := hinv.connStep hi hended
      obtain ⟨c', hlives, hless, -⟩ := connStep_spec hstep
      refine ⟨s', c', ?_, ?_, hless⟩
      · rw [serverStep, hi]
        exact hstep
      · rw [hlives, List.getElem?_set_self (List.getElem?_eq_some_iff.mp hi).1]
  · exact ⟨serverStep_closed hstep, fun i c hi ha => serverStep_other hstep hi ha⟩

/-- A server for one connection at a time. -/
def oneSlot : ServerConfig := { defaultConfig with maxConnections := 1 }

/-- The first connection is being served and the second is turned away. -/
def refusedRun : List ServerAction :=
  [.serve, .loop 0 .conn, .loop 0 .conn, .conn 0, .conn 0, .conn 0, .conn 0, .loop 0 .conn, .conn 1, .conn 1]

theorem connection_slot_accounting_two :
    ∃ s, Go.run (serverStep oneSlot) {} refusedRun = some s ∧ s.slots = (s.lives.countP fun c => c.pc.holdsSlot) ∧
      s.slots = 1 ∧ 0 ∈ s.conns ∧ 1 ∈ s.shut := by
  obtain ⟨s, hrun, hfinal⟩ : ∃ s, Go.run (serverStep oneSlot) {} refusedRun = some s ∧
      s.slots = 1 ∧ 0 ∈ s.conns ∧ 1 ∈ s.shut := ⟨_, rfl, by decide⟩
  obtain ⟨hslots, -⟩ := connection_slot_accounting oneSlot hrun
  exact ⟨s, hrun, hslots, hfinal⟩

end S7Comm
