import S7Comm.Lib.Machine
import S7Comm.Lib.Slots

/-! Goroutines that a semaphore bounds. A thread sends a token into a buffered channel and starts a goroutine, and does
    so again; each goroutine computes a value, assigns it to its own entry of a slice, and takes a token out of the
    channel when it ends. Whatever the order of the steps, an entry is assigned once, by its own goroutine, and the
    tokens in the channel are those of the goroutines that run. -/

namespace Go

/-- Where a goroutine is. -/
inductive TaskPc (α : Type) where
  | running
  | writing (a : α)
  /-- The entry is assigned; what the goroutine does with its value is next. -/
  | wrote (a : α)
  /-- The deferred receive from the semaphore is next. -/
  | releasing
  | done
  deriving Repr, DecidableEq

/-- The semaphore, the goroutines in the order in which they were started, and the slice. -/
structure Pool (α : Type) where
  sem : Nat := 0
  tasks : List (TaskPc α) := []
  results : Slots α
  /-- An index was out of range. -/
  panicked : Bool := false
  deriving Repr, DecidableEq

namespace TaskPc
variable {α : Type}

def holdsToken : TaskPc α → Bool
  | running | writing _ | wrote _ | releasing => true
  | done => false

def hasWritten : TaskPc α → Bool
  | running | writing _ => false
  | wrote _ | releasing | done => true

/-- The steps that the goroutine has still to take. -/
def stepsLeft : TaskPc α → Nat
  | running => 4
  | writing _ => 3
  | wrote _ => 2
  | releasing => 1
  | done => 0

end TaskPc

namespace Pool
variable {α : Type}

def make (zero : α) (n : Nat) : Pool α := { results := Slots.make zero n }

section Operations
variable (p : Pool α)

/-- The send into the channel of this capacity. -/
def acquire (cap : Nat) : Option (Pool α) := if p.sem < cap then some { p with sem := p.sem + 1 } else none

def spawn : Pool α := { p with tasks := p.tasks ++ [.running] }

/-- The goroutine has its value. -/
def finish (k : Nat) (a : α) : Option (Pool α) :=
  match p.tasks[k]? with
  | some .running => some { p with tasks := p.tasks.set k (.writing a) }
  | _ => none

def write (k : Nat) : Option (Pool α) :=
  match p.tasks[k]? with
  | some (.writing a) =>
    match p.results.write k a with
    | some results => some { p with tasks := p.tasks.set k (.wrote a), results }
    | none => some { p with panicked := true }
  | _ => none

/-- The goroutine goes on to its deferred call; its value is given back. -/
def leave (k : Nat) : Option (α × Pool α) :=
  match p.tasks[k]? with
  | some (.wrote a) => some (a, { p with tasks := p.tasks.set k .releasing })
  | _ => none

def release (k : Nat) : Option (Pool α) :=
  match p.tasks[k]? with
  | some .releasing => if p.sem > 0 then some { p with tasks := p.tasks.set k .done, sem := p.sem - 1 } else none
  | _ => none

/-- The wait group lets the thread go on. -/
def allDone : Prop := ∀ pc ∈ p.tasks, pc = .done

instance [DecidableEq α] : Decidable p.allDone := inferInstanceAs (Decidable (∀ pc ∈ p.tasks, pc = .done))

/-- The steps that the goroutines have still to take. -/
def stepsLeft : Nat := (p.tasks.map TaskPc.stepsLeft).sum

end Operations

section Inversion
variable {p p' : Pool α} {k : Nat} {a : α}

theorem acquire_eq_some {cap : Nat} : p.acquire cap = some p' ↔ p.sem < cap ∧ p' = { p with sem := p.sem + 1 } := by
  unfold acquire
  split
  · rename_i h
    simp [h, eq_comm]
  · rename_i h
    simp [h]

theorem finish_eq_some :
    p.finish k a = some p' ↔ p.tasks[k]? = some .running ∧ p' = { p with tasks := p.tasks.set k (.writing a) } := by
  unfold finish
  split
  · rename_i h
    simp [h, eq_comm]
  · rename_i h
    exact iff_of_false (Option.some_ne_none _ ·.symm) fun ⟨hk, _⟩ => h hk

theorem leave_eq_some :
    p.leave k = some (a, p') ↔ p.tasks[k]? = some (.wrote a) ∧ p' = { p with tasks := p.tasks.set k .releasing } := by
  unfold leave
  split
  · rename_i b h
    rw [h]
    constructor
    · rintro ⟨⟩
      exact ⟨rfl, rfl⟩
    · rintro ⟨⟨⟩, rfl⟩
      rfl
  · rename_i h
    exact iff_of_false (Option.some_ne_none _ ·.symm) fun ⟨hk, _⟩ => h a hk

theorem release_eq_some :
    p.release k = some p' ↔
      p.tasks[k]? = some .releasing ∧ 0 < p.sem ∧ p' = { p with tasks := p.tasks.set k .done, sem := p.sem - 1 } := by
  unfold release
  split
  · rename_i h
    split
    · rename_i hsem
      simp [h, hsem, eq_comm]
    · rename_i hsem
      exact iff_of_false (Option.some_ne_none _ ·.symm) fun ⟨_, hpos, _⟩ => hsem hpos
  · rename_i h
    exact iff_of_false (Option.some_ne_none _ ·.symm) fun ⟨hk, _⟩ => h hk

theorem not_allDone {pc : TaskPc α} (hk : p.tasks[k]? = some pc) (hpc : pc ≠ .done) : ¬p.allDone := fun h =>
  hpc (h pc (List.mem_of_getElem? hk))

/-- A write within the slice. -/
theorem write_of_lt (hk : p.tasks[k]? = some (.writing a)) (hlt : k < p.results.vals.length) :
    p.write k = some { p with
      tasks := p.tasks.set k (.wrote a), results := ⟨p.results.vals.set k a, k :: p.results.writes⟩ } := by
  unfold write
  rw [hk]
  dsimp only
  rw [Slots.write_of_lt a hlt]

theorem writing_of_write (h : p.write k = some p') : ∃ a, p.tasks[k]? = some (.writing a) := by
  unfold write at h
  split at h
  · exact ⟨_, ‹_›⟩
  · cases h

end Inversion

/-! ### The invariant -/

/-- What holds of a pool at any time. `held` is the number of tokens that the thread has sent for goroutines which it
    has not started yet, and `P i a` says that the goroutine with index `i` may compute `a`. -/
structure Inv (cap n held : Nat) (zero : α) (P : Nat → α → Prop) (p : Pool α) : Prop where
  sized : p.results.vals.length = n
  few : p.tasks.length + held ≤ n
  calm : p.panicked = false
  tokens : p.sem = p.tasks.countP (·.holdsToken) + held
  bounded : p.sem ≤ cap
  writes : ∀ k, p.results.writes.count k = if p.tasks[k]?.any (·.hasWritten) then 1 else 0
  filled : p.results.Filled zero P
  writing : ∀ k a, p.tasks[k]? = some (.writing a) → P k a
  wrote : ∀ (k : Nat) (a : α), p.tasks[k]? = some (.wrote a) → p.results.vals[k]? = some a

namespace Inv
variable {cap n held : Nat} {zero : α} {P : Nat → α → Prop} {p p' : Pool α} {k : Nat} {a : α}

theorem make (cap n : Nat) (zero : α) (P : Nat → α → Prop) : Inv cap n 0 zero P (Pool.make zero n) where
  sized := List.length_replicate
  few := Nat.zero_le _
  calm := rfl
  tokens := rfl
  bounded := Nat.zero_le _
  writes _ := rfl
  filled := Slots.filled_make _ _ _
  writing := by rintro _ _ ⟨⟩
  wrote := by rintro _ _ ⟨⟩

theorem acquire (h : Inv cap n 0 zero P p) (hlt : p.tasks.length < n) (hp : p.acquire cap = some p') :
    Inv cap n 1 zero P p' := by
  obtain ⟨hsem, rfl⟩ := acquire_eq_some.mp hp
  exact { h with few := hlt, tokens := congrArg (· + 1) h.tokens, bounded := hsem }

/-- The goroutine at an index of a list that has one more at its end. -/
theorem getElem?_spawn {q : TaskPc α → Prop} (hrunning : ¬q .running) {pc : TaskPc α}
    (hk : (p.tasks ++ [.running])[k]? = some pc) (hq : q pc) : p.tasks[k]? = some pc := by
  by_cases hlt : k < p.tasks.length
  · rwa [List.getElem?_append_left hlt] at hk
  · rw [List.getElem?_append_right (Nat.le_of_not_lt hlt)] at hk
    obtain rfl := List.mem_singleton.mp (List.mem_of_getElem? hk)
    exact absurd hq hrunning

theorem spawn (h : Inv cap n 1 zero P p) : Inv cap n 0 zero P p.spawn where
  sized := h.sized
  few := by
    rw [Pool.spawn, List.length_append]
    exact h.few
  calm := h.calm
  tokens := by
    rw [Pool.spawn, List.countP_append]
    exact h.tokens
  bounded := h.bounded
  writes m := by
    have hany : (p.tasks ++ [.running])[m]?.any (·.hasWritten) = p.tasks[m]?.any (·.hasWritten) := by
      by_cases hm : m < p.tasks.length
      · rw [List.getElem?_append_left hm]
      · rw [List.getElem?_append_right (Nat.le_of_not_lt hm), List.getElem?_eq_none (Nat.le_of_not_lt hm)]
        cases m - p.tasks.length <;> rfl
    exact (h.writes m).trans (by rw [Pool.spawn, hany])
  filled := h.filled
  writing m b hm := h.writing m b (getElem?_spawn (q := (· = .writing b)) nofun hm rfl)
  wrote m b hm := h.wrote m b (getElem?_spawn (q := (· = .wrote b)) nofun hm rfl)

/-- A goroutine goes on: its token and its entry are the only ones that may change. -/
theorem setTask (h : Inv cap n held zero P p) {pc : TaskPc α} (hk : p.tasks[k]? = some pc) (pc' : TaskPc α) {sem : Nat}
    (hsem : sem + (if pc.holdsToken then 1 else 0) = p.sem + if pc'.holdsToken then 1 else 0) (hle : sem ≤ p.sem)
    {results : Slots α} (hsized : results.vals.length = n)
    (hwrites : ∀ m, results.writes.count m + (if k = m ∧ pc.hasWritten then 1 else 0) =
      p.results.writes.count m + if k = m ∧ pc'.hasWritten then 1 else 0)
    (hfilled : results.Filled zero P) (hothers : ∀ m, k ≠ m → results.vals[m]? = p.results.vals[m]?)
    (hwriting : ∀ b, pc' = .writing b → P k b) (hwrote : ∀ b, pc' = .wrote b → results.vals[k]? = some b) :
    Inv cap n held zero P { p with sem, tasks := p.tasks.set k pc', results } := by
  obtain ⟨hlt, -⟩ := List.getElem?_eq_some_iff.mp hk
  -- The goroutine at an index after the step: this one, or one that has not moved.
  have hcases : ∀ {m : Nat} {q : TaskPc α}, (p.tasks.set k pc')[m]? = some q →
      (k = m ∧ pc' = q) ∨ (k ≠ m ∧ p.tasks[m]? = some q) := by
    intro m q hm
    by_cases heq : k = m
    · subst heq
      rw [List.getElem?_set_self hlt] at hm
      exact .inl ⟨rfl, Option.some.inj hm⟩
    · rw [List.getElem?_set_ne heq] at hm
      exact .inr ⟨heq, hm⟩
  constructor
  · exact hsized
  · exact (congrArg (· + held) List.length_set).trans_le h.few
  · exact h.calm
  · have hset := countP_set_ite (p := (·.holdsToken)) hk pc'
    have htokens := h.tokens
    dsimp only
    omega
  · exact hle.trans h.bounded
  · intro m
    have hcount := hwrites m
    rw [h.writes m] at hcount
    dsimp only
    by_cases hm : k = m
    · subst hm
      simp only [List.getElem?_set_self hlt, hk, Option.any_some, true_and] at hcount ⊢
      omega
    · simp only [List.getElem?_set_ne hm, hm, false_and, if_false] at hcount ⊢
      exact hcount
  · exact hfilled
  · intro m b hm
    rcases hcases hm with ⟨rfl, hpc⟩ | ⟨-, hm⟩
    · exact hwriting b hpc
    · exact h.writing m b hm
  · intro m b hm
    rcases hcases hm with ⟨rfl, hpc⟩ | ⟨hne, hm⟩
    · exact hwrote b hpc
    · exact (hothers m hne).trans (h.wrote m b hm)

theorem finish (h : Inv cap n held zero P p) (ha : P k a) (hp : p.finish k a = some p') : Inv cap n held zero P p' := by
  obtain ⟨hk, rfl⟩ := finish_eq_some.mp hp
  refine h.setTask hk (.writing a) rfl (Nat.le_refl _) h.sized (fun _ => rfl) h.filled (fun _ _ => rfl) ?_ nofun
  rintro _ ⟨⟩
  exact ha

theorem lt_of_task (h : Inv cap n held zero P p) {pc : TaskPc α} (hk : p.tasks[k]? = some pc) : k < n :=
  (List.getElem?_eq_some_iff.mp hk).1.trans_le (Nat.le_of_add_right_le h.few)

theorem lt_length (h : Inv cap n held zero P p) {pc : TaskPc α} (hk : p.tasks[k]? = some pc) :
    k < p.results.vals.length :=
  h.sized.symm ▸ h.lt_of_task hk

/-- No index is out of range. -/
theorem write_eq_some (h : Inv cap n held zero P p) (hp : p.write k = some p') :
    ∃ a, p.tasks[k]? = some (.writing a) ∧ p' = { p with
      tasks := p.tasks.set k (.wrote a), results := ⟨p.results.vals.set k a, k :: p.results.writes⟩ } := by
  obtain ⟨a, hk⟩ := writing_of_write hp
  rw [write_of_lt hk (h.lt_length hk)] at hp
  exact ⟨a, hk, (Option.some.inj hp).symm⟩

theorem write (h : Inv cap n held zero P p) (hp : p.write k = some p') : Inv cap n held zero P p' := by
  obtain ⟨b, hk, rfl⟩ := h.write_eq_some hp
  refine h.setTask hk (.wrote b) rfl (Nat.le_refl _) ((List.length_set ..).trans h.sized) (fun m => ?_)
    (h.filled.write (h.writing k b hk)) (fun m hm => List.getElem?_set_ne hm) nofun ?_
  · simp [TaskPc.hasWritten, List.count_cons]
  · rintro _ ⟨⟩
    exact List.getElem?_set_self (h.lt_length hk)

theorem leave (h : Inv cap n held zero P p) (hp : p.leave k = some (a, p')) : Inv cap n held zero P p' := by
  obtain ⟨hk, rfl⟩ := leave_eq_some.mp hp
  exact h.setTask hk .releasing rfl (Nat.le_refl _) h.sized (fun _ => rfl) h.filled (fun _ _ => rfl) nofun nofun

theorem release (h : Inv cap n held zero P p) (hp : p.release k = some p') : Inv cap n held zero P p' := by
  obtain ⟨hk, hpos, rfl⟩ := release_eq_some.mp hp
  exact h.setTask hk .done (Nat.sub_add_cancel hpos) (Nat.sub_le _ _) h.sized (fun _ => rfl) h.filled (fun _ _ => rfl)
    nofun nofun

/-! ### What follows -/

/-- No more goroutines run than the channel has room for. -/
theorem running_le (h : Inv cap n held zero P p) : p.tasks.countP (·.holdsToken) ≤ cap :=
  (Nat.le_add_right _ held).trans (h.tokens ▸ h.bounded)

/-- An entry is written at most once, and only when it has a goroutine. -/
theorem writes_eq (h : Inv cap n held zero P p) (hdone : p.allDone) (k : Nat) :
    p.results.writes.count k = if k < p.tasks.length then 1 else 0 := by
  rw [h.writes k]
  by_cases hk : k < p.tasks.length
  · rw [List.getElem?_eq_getElem hk, hdone _ (List.getElem_mem hk), if_pos hk]
    rfl
  · rw [List.getElem?_eq_none (Nat.le_of_not_lt hk), if_neg hk]
    rfl

/-- When all goroutines have ended, the entries of those that were started have their values. -/
theorem entries (h : Inv cap n held zero P p) (hdone : p.allDone) {i : Nat} (hi : p.results.vals[i]? = some a) :
    (i < p.tasks.length ∧ P i a) ∨ (p.tasks.length ≤ i ∧ a = zero) := by
  have hcount := h.writes_eq hdone i
  rcases h.filled i a hi with ⟨hfresh, hzero⟩ | ⟨hmem, hP⟩
  · refine .inr ⟨Nat.le_of_not_lt fun hlt => ?_, hzero⟩
    rw [if_pos hlt, List.count_eq_zero_of_not_mem hfresh] at hcount
    cases hcount
  · refine .inl ⟨Nat.lt_of_not_le fun hle => ?_, hP⟩
    rw [if_neg (Nat.not_lt_of_le hle), List.count_eq_zero] at hcount
    exact hcount hmem

/-- A goroutine that has not ended can go on, once it has its value. -/
theorem goes_on (h : Inv cap n held zero P p) {pc : TaskPc α} (hk : p.tasks[k]? = some pc) (hpc : pc ≠ .done) :
    pc = .running ∨ (∃ p', p.write k = some p') ∨ (∃ a p', p.leave k = some (a, p')) ∨ ∃ p', p.release k = some p' := by
  cases pc with
  | running => exact .inl rfl
  | writing a => exact .inr (.inl ⟨_, write_of_lt hk (h.lt_length hk)⟩)
  | wrote a => exact .inr (.inr (.inl ⟨a, _, leave_eq_some.mpr ⟨hk, rfl⟩⟩))
  | releasing =>
    have hpos : 0 < p.tasks.countP (·.holdsToken) := List.countP_pos_iff.mpr ⟨_, List.mem_of_getElem? hk, rfl⟩
    have htokens := h.tokens
    exact .inr (.inr (.inr ⟨_, release_eq_some.mpr ⟨hk, by omega, rfl⟩⟩))
  | done => exact absurd rfl hpc

/-- When the channel is full, a goroutine has not ended. -/
theorem exists_running (h : Inv cap n 0 zero P p) (hcap : 0 < cap) (hfull : cap ≤ p.sem) :
    ∃ (k : Nat) (pc : TaskPc α), p.tasks[k]? = some pc ∧ pc ≠ .done := by
  have hpos : 0 < p.tasks.countP (·.holdsToken) := by
    have htokens := h.tokens
    omega
  obtain ⟨pc, hmem, hholds⟩ := List.countP_pos_iff.mp hpos
  obtain ⟨k, hk⟩ := List.mem_iff_getElem?.mp hmem
  refine ⟨k, pc, hk, ?_⟩
  rintro rfl
  cases hholds

end Inv

/-! ### Entries that stay -/

/-- The goroutine with this index has assigned the value to its entry. -/
def Written (p : Pool α) (i : Nat) (a : α) : Prop :=
  (∃ pc, p.tasks[i]? = some pc ∧ pc.hasWritten = true) ∧ p.results.vals[i]? = some a

section Written
variable {cap n held : Nat} {zero : α} {P : Nat → α → Prop} {p p' : Pool α} {i k : Nat} {a b : α}

theorem Inv.written (h : Inv cap n held zero P p) (hk : p.tasks[k]? = some (.wrote a)) : p.Written k a :=
  ⟨⟨_, hk, rfl⟩, h.wrote k a hk⟩

theorem Written.lt (h : p.Written i a) : i < p.tasks.length := by
  obtain ⟨⟨pc, hi, -⟩, -⟩ := h
  exact (List.getElem?_eq_some_iff.mp hi).1

/-- A step of a goroutine leaves the entries alone that are assigned. -/
theorem Written.set (h : p.Written i a) {pc : TaskPc α} (hk : p.tasks[k]? = some pc) {pc' : TaskPc α}
    (hpc : pc.hasWritten = true → pc'.hasWritten = true) {sem : Nat} {results : Slots α} {panicked : Bool}
    (hvals : ∀ m, k ≠ m ∨ pc.hasWritten = true → results.vals[m]? = p.results.vals[m]?) :
    Written ⟨sem, p.tasks.set k pc', results, panicked⟩ i a := by
  obtain ⟨⟨q, hi, hq⟩, hval⟩ := h
  obtain ⟨hlt, -⟩ := List.getElem?_eq_some_iff.mp hk
  by_cases heq : k = i
  · subst heq
    obtain rfl : pc = q := Option.some.inj (hk.symm.trans hi)
    exact ⟨⟨pc', List.getElem?_set_self hlt, hpc hq⟩, (hvals k (.inr hq)).trans hval⟩
  · exact ⟨⟨q, (List.getElem?_set_ne heq).trans hi, hq⟩, (hvals i (.inl heq)).trans hval⟩

theorem Written.spawn (h : p.Written i a) : p.spawn.Written i a := by
  have hlt := h.lt
  obtain ⟨⟨pc, hi, hpc⟩, hval⟩ := h
  exact ⟨⟨pc, (List.getElem?_append_left hlt).trans hi, hpc⟩, hval⟩

theorem Written.finish (h : p.Written i a) (hp : p.finish k b = some p') : p'.Written i a := by
  obtain ⟨hk, rfl⟩ := finish_eq_some.mp hp
  exact h.set hk nofun fun _ _ => rfl

theorem Written.write (h : p.Written i a) (hinv : Inv cap n held zero P p) (hp : p.write k = some p') :
    p'.Written i a := by
  obtain ⟨b, hk, rfl⟩ := hinv.write_eq_some hp
  refine h.set hk nofun fun m hm => ?_
  rcases hm with hm | hm
  · exact List.getElem?_set_ne hm
  · cases hm

theorem Written.leave (h : p.Written i a) (hp : p.leave k = some (b, p')) : p'.Written i a := by
  obtain ⟨hk, rfl⟩ := leave_eq_some.mp hp
  exact h.set hk (fun _ => rfl) fun _ _ => rfl

theorem Written.release (h : p.Written i a) (hp : p.release k = some p') : p'.Written i a := by
  obtain ⟨hk, -, rfl⟩ := release_eq_some.mp hp
  exact h.set hk (fun _ => rfl) fun _ _ => rfl

end Written

/-! ### Steps -/

section Steps
variable {p p' : Pool α} {k : Nat} {a : α}

theorem stepsLeft_spawn : p.spawn.stepsLeft = p.stepsLeft + 4 := by
  simp [stepsLeft, spawn, TaskPc.stepsLeft]

theorem stepsLeft_set {pc : TaskPc α} (hk : p.tasks[k]? = some pc) (pc' : TaskPc α) (hlt : pc'.stepsLeft < pc.stepsLeft)
    {sem : Nat} {results : Slots α} {panicked : Bool} :
    stepsLeft ⟨sem, p.tasks.set k pc', results, panicked⟩ < p.stepsLeft := by
  have hset := sum_map_set TaskPc.stepsLeft hk pc'
  unfold stepsLeft
  dsimp only
  omega

theorem stepsLeft_finish (h : p.finish k a = some p') : p'.stepsLeft < p.stepsLeft := by
  obtain ⟨hk, rfl⟩ := finish_eq_some.mp h
  exact stepsLeft_set hk (.writing a) (Nat.lt_succ_self 3)

theorem stepsLeft_leave (h : p.leave k = some (a, p')) : p'.stepsLeft < p.stepsLeft := by
  obtain ⟨hk, rfl⟩ := leave_eq_some.mp h
  exact stepsLeft_set hk .releasing (Nat.lt_succ_self 1)

theorem stepsLeft_release (h : p.release k = some p') : p'.stepsLeft < p.stepsLeft := by
  obtain ⟨hk, -, rfl⟩ := release_eq_some.mp h
  exact stepsLeft_set hk .done Nat.one_pos

theorem Inv.stepsLeft_write {cap n held : Nat} {zero : α} {P : Nat → α → Prop} (h : Inv cap n held zero P p)
    (hp : p.write k = some p') : p'.stepsLeft < p.stepsLeft := by
  obtain ⟨b, hk, rfl⟩ := h.write_eq_some hp
  exact stepsLeft_set hk (.wrote b) (Nat.lt_succ_self 2)

end Steps
end Pool
end Go
