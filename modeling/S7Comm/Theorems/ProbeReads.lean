import S7Comm.Client.RangeScan
import S7Comm.Theorems.HostileReads

/-! Mixed reads of a probe. The repeats of a probe are compared with each other, and so are its retries, but no repeat
    is compared with a retry. -/

namespace S7Comm
open Go

/-! ### Reads are never inconclusive -/

section Conclusive
variable {σ : Type} {net : Net σ} {addr : Address} {st st' : Client × σ} {out : ReadResult}

theorem classifyOpError_ne_inconclusive (err : GoError) : classifyOpError err ≠ .inconclusive := by
  unfold classifyOpError
  split_ifs <;> simp

theorem readOutcome_ne_inconclusive (reqLen : Nat) (result : Bytes) :
    (readOutcome reqLen result).status ≠ .inconclusive := by
  have h : ∀ n, classifyReadOutcome reqLen n ≠ .inconclusive := by
    intro n
    unfold classifyReadOutcome
    split_ifs <;> simp
  exact h result.length

theorem readChunks_ne_inconclusive {reqLen : Nat} {chunks : List Nat} {first : Bool} {offset : Nat} {result : Bytes}
    (h : readChunks net addr reqLen chunks first offset result st = (.ok out, st')) : out.status ≠ .inconclusive := by
  induction chunks generalizing first offset result st with
  | nil =>
    cases h
    exact readOutcome_ne_inconclusive reqLen result
  | cons n chunks ih =>
    obtain ⟨r, st₁, hchunk, h⟩ := Eff.bind_eq_ok.mp h
    cases r with
    | ok payload => exact ih h
    | error early =>
      cases h
      rcases readChunk_cases hchunk with ⟨e, hfailed⟩ | ⟨param, data, -, hanswer⟩
      · cases hfailed
        exact classifyOpError_ne_inconclusive e
      · obtain ⟨-, -, -, ⟨hstatus, -⟩ | hstatus | hstatus⟩ := readAnswer_error hanswer <;> simp [hstatus]

theorem probeRead_ne_inconclusive (h : probeRead net addr st = (.ok out, st')) : out.status ≠ .inconclusive := by
  unfold probeRead at h
  obtain ⟨r, st₁, hread, h⟩ := Eff.bind_eq_ok.mp h
  rcases Eff.attempt_eq_ok hread with ⟨res, rfl, hok⟩ | ⟨e, rfl, -⟩
  · cases h
    unfold readArea at hok
    obtain ⟨_, st₂, -, hok⟩ := Eff.bind_eq_ok.mp hok
    obtain ⟨_, st₃, -, hok⟩ := Eff.bind_eq_ok.mp hok
    obtain ⟨⟨c, w⟩, st₄, -, hok⟩ := Eff.bind_eq_ok.mp hok
    exact readChunks_ne_inconclusive hok
  · cases h
    exact classifyOpError_ne_inconclusive e

end Conclusive

/-! ### Mixed reads -/

/-- Two reads have the same outcome. -/
def ReadResult.Same (r s : ReadResult) : Prop := r.status = s.status ∧ r.data = s.data

/-- All reads of a list have the same outcome. -/
def Uniform (reads : List ReadResult) : Prop := ∀ r ∈ reads, ∀ s ∈ reads, r.Same s

theorem ReadResult.differs_eq_false {r s : ReadResult} : r.differs s = false ↔ r.Same s := by
  simp [ReadResult.differs, ReadResult.Same]

/-- It is enough to compare with the first read. -/
theorem mixedReads_eq_false {reads : List ReadResult} : mixedReads reads = false ↔ Uniform reads := by
  cases reads with
  | nil => exact iff_of_true rfl nofun
  | cons first later =>
    have hmixed : mixedReads (first :: later) = false ↔ ∀ r ∈ later, r.Same first := by
      simp [mixedReads, ReadResult.differs_eq_false]
    rw [hmixed]
    constructor
    · intro h
      have hfirst : ∀ r ∈ first :: later, r.Same first := by
        rintro r (_ | ⟨_, hr⟩)
        · exact ⟨rfl, rfl⟩
        · exact h r hr
      intro r hr s hs
      obtain ⟨h₁, h₂⟩ := hfirst r hr
      obtain ⟨h₃, h₄⟩ := hfirst s hs
      exact ⟨h₁.trans h₃.symm, h₂.trans h₄.symm⟩
    · exact fun h r hr => h r (List.mem_cons_of_mem _ hr) first (List.mem_cons_self ..)

theorem not_uniform {reads : List ReadResult} : ¬Uniform reads ↔ ∃ r ∈ reads, ∃ s ∈ reads, ¬r.Same s := by
  simp [Uniform]

theorem Uniform.append {reads later : List ReadResult} (h₁ : Uniform reads) (h₂ : Uniform later)
    (h : ∀ r ∈ reads, ∀ s ∈ later, r.Same s) : Uniform (reads ++ later) := by
  intro r hr s hs
  rcases List.mem_append.mp hr with hr | hr <;> rcases List.mem_append.mp hs with hs | hs
  · exact h₁ r hr s hs
  · exact h r hr s hs
  · exact ⟨(h s hs r hr).1.symm, (h s hs r hr).2.symm⟩
  · exact h₂ r hr s hs

theorem Uniform.of_append {reads later : List ReadResult} (h : Uniform (reads ++ later)) :
    Uniform reads ∧ Uniform later :=
  ⟨fun r hr s hs => h r (List.mem_append_left _ hr) s (List.mem_append_left _ hs),
    fun r hr s hs => h r (List.mem_append_right _ hr) s (List.mem_append_right _ hs)⟩

/-- Mixed reads are more than one. -/
theorem length_of_mixedReads {reads : List ReadResult} (h : mixedReads reads = true) : 1 < reads.length := by
  match reads, h with
  | _ :: _ :: _, _ => simp

/-! ### The reads of a probe -/

section Performs
variable {σ : Type} (net : Net σ) (addr : Address) (pause : Bool)

/-- The reads that a loop performs, one after the other, while the context does not end. -/
def Performs : (first : Bool) → List ReadResult → (st st' : Client × σ) → Prop
  | _, [], st, st' => st' = st
  | first, r :: later, st, st' => ∃ st₁ st₂ st₃, netErr net.ctxErr st = (.ok (), st₁) ∧
      (if pause && !first then netErr net.wait else pure ()) st₁ = (.ok (), st₂) ∧
      probeRead net addr st₂ = (.ok r, st₃) ∧ Performs false later st₃ st'

variable {net addr pause} {first : Bool} {reads : List ReadResult} {st st' : Client × σ}

/-- The loop returns exactly the reads that it performs. By induction over the reads. -/
theorem probeReads_eq_ok {n : Nat} :
    probeReads net addr pause n first st = (.ok (.ok reads), st') ↔
      reads.length = n ∧ Performs net addr pause first reads st st' := by
  induction n generalizing first reads st with
  | zero =>
    constructor
    · rintro ⟨⟩
      exact ⟨rfl, rfl⟩
    · rintro ⟨hlen, hperforms⟩
      obtain rfl := List.eq_nil_of_length_eq_zero hlen
      cases hperforms
      rfl
  | succ n ih =>
    constructor
    · intro h
      obtain ⟨ended, st₁, hctx, h⟩ := Eff.bind_eq_ok.mp h
      rcases Eff.attempt_eq_ok hctx with ⟨⟨⟩, rfl, hlive⟩ | ⟨e, rfl, -⟩
      swap
      · cases h
      obtain ⟨ended, st₂, hwait, h⟩ := Eff.bind_eq_ok.mp h
      rcases Eff.attempt_eq_ok hwait with ⟨⟨⟩, rfl, hpassed⟩ | ⟨e, rfl, -⟩
      swap
      · cases h
      obtain ⟨r, st₃, hread, h⟩ := Eff.bind_eq_ok.mp h
      obtain ⟨_ | later, st₄, hlater, h⟩ := Eff.bind_eq_ok.mp h
      · cases h
      · cases h
        obtain ⟨rfl, hperforms⟩ := ih.mp hlater
        exact ⟨rfl, st₁, st₂, st₃, hlive, hpassed, hread, hperforms⟩
    · rintro ⟨hlen, hperforms⟩
      cases reads with
      | nil => cases hlen
      | cons r later =>
        obtain ⟨st₁, st₂, st₃, hctx, hwait, hread, hlater⟩ := hperforms
        rw [probeReads, Eff.bind_ok (Eff.attempt_ok hctx)]
        dsimp only
        rw [Eff.bind_ok (Eff.attempt_ok hwait)]
        dsimp only
        rw [Eff.bind_ok hread, Eff.bind_ok (ih.mpr ⟨Nat.succ.inj hlen, hlater⟩)]
        rfl

theorem Performs.ne_inconclusive (h : Performs net addr pause first reads st st') :
    ∀ r ∈ reads, r.status ≠ .inconclusive := by
  induction reads generalizing first st with
  | nil => exact nofun
  | cons r later ih =>
    obtain ⟨st₁, st₂, st₃, -, -, hread, hlater⟩ := h
    rintro s (_ | ⟨_, hs⟩)
    · exact probeRead_ne_inconclusive hread
    · exact ih hlater s hs

end Performs

/-- The reads of `probeOneOffset`: the repeats, and after them the retries, if there are any. -/
def ProbePerforms {σ : Type} (net : Net σ) (req : RangeProbeRequest) (offset probeSize : Int64) (st : Client × σ)
    (repeated attempts : List ReadResult) (st' : Client × σ) : Prop :=
  ∃ st₁, repeated.length = req.repeatCount ∧
    Performs net (req.probeAddress offset probeSize) (req.interval > 0) true repeated st st₁ ∧
    attempts.length = (if req.retries > 0 then req.retries.toNat + 1 else 0) ∧
    Performs net (req.probeAddress offset probeSize) (req.retryDelay > 0) true attempts st₁ st'

/-- Mixed reads are reported: the observation is inconclusive exactly when two of the reads differ, and else it has
    their common outcome. -/
structure MixedReported (obs : ReadProbeObservation) (reads : List ReadResult) : Prop where
  inconclusive : obs.result.status = .inconclusive ↔ ∃ r ∈ reads, ∃ s ∈ reads, ¬r.Same s
  common : Uniform reads → ∀ r ∈ reads, obs.result.Same r

/-- All repeats agree, and all retries agree, but not with each other. -/
def SplitReads (repeated attempts : List ReadResult) : Prop :=
  Uniform repeated ∧ Uniform attempts ∧ ∃ r ∈ repeated, ∃ s ∈ attempts, ¬r.Same s

section Verdict
variable {repeated attempts : List ReadResult} {last : ReadResult} {n : Nat}

theorem repeatedResult_of_uniform (h : Uniform repeated) : repeatedResult n repeated last = last := by
  unfold repeatedResult
  rw [if_neg]
  rintro ⟨-, -, hmixed⟩
  rw [mixedReads_eq_false.mpr h] at hmixed
  cases hmixed

theorem retriedResult_of_uniform (h : Uniform attempts) : retriedResult attempts last = last := by
  unfold retriedResult
  rw [if_neg]
  rintro ⟨-, hmixed⟩
  rw [mixedReads_eq_false.mpr h] at hmixed
  cases hmixed

theorem status_retriedResult (h : ¬Uniform attempts) : (retriedResult attempts last).status = .inconclusive := by
  rw [← mixedReads_eq_false, Bool.not_eq_false] at h
  rw [retriedResult, if_pos ⟨length_of_mixedReads h, h⟩]

theorem status_repeatedResult (hn : repeated.length = n) (h : ¬Uniform repeated) :
    (repeatedResult n repeated last).status = .inconclusive := by
  rw [← mixedReads_eq_false, Bool.not_eq_false] at h
  have hlen := length_of_mixedReads h
  rw [repeatedResult, if_pos ⟨hn ▸ hlen, hlen, h⟩]

/-- The result is the last repeat if repeats and retries agree among themselves, and else it is inconclusive. -/
theorem result_cases (hn : repeated.length = n) :
    (Uniform repeated ∧ Uniform attempts ∧ retriedResult attempts (repeatedResult n repeated last) = last) ∨
      ¬(Uniform repeated ∧ Uniform attempts) ∧
        (retriedResult attempts (repeatedResult n repeated last)).status = .inconclusive := by
  by_cases ha : Uniform attempts
  · rw [retriedResult_of_uniform ha]
    by_cases hr : Uniform repeated
    · exact .inl ⟨hr, ha, repeatedResult_of_uniform hr⟩
    · exact .inr ⟨fun h => hr h.1, status_repeatedResult hn hr⟩
  · exact .inr ⟨fun h => ha h.2, status_retriedResult ha⟩

theorem result_observe (result : ReadResult) : (observe n repeated result).result = result := by
  unfold observe
  split <;> rfl

/-- An observation of reads that are not inconclusive themselves reports mixed reads, unless the reads are split. -/
theorem mixedReported_iff {obs : ReadProbeObservation} (hn : repeated.length = n)
    (hlast : repeated.getLast? = some last) (hne : last.status ≠ .inconclusive)
    (hobs : obs.result = retriedResult attempts (repeatedResult n repeated last)) :
    MixedReported obs (repeated ++ attempts) ↔ ¬SplitReads repeated attempts := by
  rcases result_cases hn with ⟨hr, ha, hresult⟩ | ⟨hmixed, hstatus⟩
  · rw [hresult] at hobs
    constructor
    · rintro hreported ⟨-, -, r, hr', s, hs, hdiff⟩
      have hinc := hreported.inconclusive.mpr
        ⟨r, List.mem_append_left _ hr', s, List.mem_append_right _ hs, hdiff⟩
      rw [hobs] at hinc
      exact hne hinc
    · intro hsplit
      have hall : Uniform (repeated ++ attempts) :=
        hr.append ha fun r hr' s hs => by_contra fun hdiff => hsplit ⟨hr, ha, r, hr', s, hs, hdiff⟩
      refine ⟨⟨fun h => absurd (hobs ▸ h) hne, ?_⟩, fun _ r hr' => ?_⟩
      · rintro ⟨r, hr', s, hs, hdiff⟩
        exact absurd (hall r hr' s hs) hdiff
      · rw [hobs]
        exact hall last (List.mem_append_left _ (List.mem_of_getLast? hlast)) r hr'
  · rw [← hobs] at hstatus
    have hall : ¬Uniform (repeated ++ attempts) := fun h => hmixed h.of_append
    refine iff_of_true ⟨iff_of_true hstatus (not_uniform.mp hall), fun h => absurd h hall⟩ ?_
    exact fun ⟨hr, ha, _⟩ => hmixed ⟨hr, ha⟩

end Verdict

section Probe
variable {σ : Type} {net : Net σ} {req : RangeProbeRequest} {offset probeSize : Int64} {st st' : Client × σ}
  {repeated attempts : List ReadResult}

theorem repeatCount_pos (req : RangeProbeRequest) : 0 < req.repeatCount := by
  unfold RangeProbeRequest.repeatCount
  omega

/-- What the probe makes of its reads. -/
theorem probeOneOffset_eq {last : ReadResult} (h : ProbePerforms net req offset probeSize st repeated attempts st')
    (hlast : repeated.getLast? = some last) :
    probeOneOffset net req offset probeSize st =
      (.ok (observe req.repeatCount repeated
        (retriedResult attempts (repeatedResult req.repeatCount repeated last))), st') := by
  obtain ⟨st₁, hcount, hrepeats, hattempts, hretries⟩ := h
  unfold probeOneOffset
  rw [Eff.bind_ok (probeReads_eq_ok.mpr ⟨hcount, hrepeats⟩)]
  dsimp only
  rw [hlast]
  dsimp only
  by_cases hretry : req.retries > 0
  · rw [if_pos hretry] at hattempts ⊢
    rw [Eff.bind_ok (probeReads_eq_ok.mpr ⟨hattempts, hretries⟩)]
    rfl
  · rw [if_neg hretry] at hattempts ⊢
    obtain rfl := List.eq_nil_of_length_eq_zero hattempts
    cases hretries
    rfl

end Probe

/-- Mixed reads of a probe are reported, unless all repeats agree and all retries agree, but not with each other. -/
theorem mixed_reads_reported_iff {σ : Type} (net : Net σ) (req : RangeProbeRequest) (offset probeSize : Int64)
    (st st' : Client × σ) (repeated attempts : List ReadResult)
    (h : ProbePerforms net req offset probeSize st repeated attempts st') :
    ∃ obs, probeOneOffset net req offset probeSize st = (.ok obs, st') ∧
      (MixedReported obs (repeated ++ attempts) ↔ ¬SplitReads repeated attempts) := by
  obtain ⟨last, hlast⟩ : ∃ last, repeated.getLast? = some last := by
    obtain ⟨-, hcount, -⟩ := h
    have hpos := repeatCount_pos req
    rw [← hcount] at hpos
    exact ⟨_, List.getLast?_eq_some_getLast (List.ne_nil_of_length_pos hpos)⟩
  refine ⟨_, probeOneOffset_eq h hlast, ?_⟩
  obtain ⟨st₁, hcount, hrepeats, -⟩ := h
  exact mixedReported_iff hcount hlast (hrepeats.ne_inconclusive last (List.mem_of_getLast? hlast)) (result_observe _)

/-- A probe of one byte with one retry, which is one read and then two more. -/
def retriedRequest : RangeProbeRequest where
  area := areaDB
  dbNumber := 1
  start := 0
  stop := 1
  step := 1
  probeSize := 1
  retries := 1

/-- A successful read of one byte. -/
def byteRead (b : UInt8) : ReadResult := { status := .success, requestedLength := 1, returnedLength := 1, data := [b] }

/-- The three reads of the probe, from a peer that answers these bytes. -/
theorem retriedRequest_performs (a b c : UInt8) (st₁ st' : Client × Peer)
    (hfirst : probeReads peerNet (retriedRequest.probeAddress 0 1) (retriedRequest.interval > 0) 1 true
      (smallClient, { turns := [byteTurn 1 [a], byteTurn 2 [b], byteTurn 3 [c]] }) = (.ok (.ok [byteRead a]), st₁))
    (hlater : probeReads peerNet (retriedRequest.probeAddress 0 1) (retriedRequest.retryDelay > 0) 2 true st₁ =
      (.ok (.ok [byteRead b, byteRead c]), st')) :
    ProbePerforms peerNet retriedRequest 0 1
      (smallClient, { turns := [byteTurn 1 [a], byteTurn 2 [b], byteTurn 3 [c]] }) [byteRead a] [byteRead b, byteRead c]
      st' :=
  ⟨st₁, rfl, (probeReads_eq_ok.mp hfirst).2, rfl, (probeReads_eq_ok.mp hlater).2⟩

/-- The byte changes between the two retries, and the observation is inconclusive. -/
theorem mixed_retries_reported :
    ∃ obs st', probeOneOffset peerNet retriedRequest 0 1
        (smallClient, { turns := [byteTurn 1 [0x11], byteTurn 2 [0x11], byteTurn 3 [0x22]] }) = (.ok obs, st') ∧
      obs.result.status = .inconclusive ∧ MixedReported obs [byteRead 0x11, byteRead 0x11, byteRead 0x22] := by
  have hperforms := retriedRequest_performs 0x11 0x11 0x22
    ({ smallClient with pduRef := 1 }, { turns := [byteTurn 2 [0x11], byteTurn 3 [0x22]] })
    ({ smallClient with pduRef := 3 }, { turns := [] }) (by decide +kernel) (by decide +kernel)
  obtain ⟨obs, hrun, hiff⟩ := mixed_reads_reported_iff _ _ _ _ _ _ _ _ hperforms
  have hreported : MixedReported obs [byteRead 0x11, byteRead 0x11, byteRead 0x22] := by
    refine hiff.mpr fun ⟨_, huniform, _⟩ => ?_
    exact absurd (huniform (byteRead 0x11) (by simp) (byteRead 0x22) (by simp)).2 (by decide)
  refine ⟨obs, _, hrun, hreported.inconclusive.mpr ?_, hreported⟩
  exact ⟨byteRead 0x11, by simp, byteRead 0x22, by simp, fun h => absurd h.2 (by decide)⟩

/-- The byte changes between the first read and the retries, and the observation is a success with the old byte. -/
theorem split_reads_not_reported :
    ∃ obs st', probeOneOffset peerNet retriedRequest 0 1
        (smallClient, { turns := [byteTurn 1 [0x11], byteTurn 2 [0x22], byteTurn 3 [0x22]] }) = (.ok obs, st') ∧
      ProbePerforms peerNet retriedRequest 0 1
        (smallClient, { turns := [byteTurn 1 [0x11], byteTurn 2 [0x22], byteTurn 3 [0x22]] }) [byteRead 0x11]
        [byteRead 0x22, byteRead 0x22] st' ∧
      obs.result = byteRead 0x11 ∧ ¬MixedReported obs [byteRead 0x11, byteRead 0x22, byteRead 0x22] := by
  have hperforms := retriedRequest_performs 0x11 0x22 0x22
    ({ smallClient with pduRef := 1 }, { turns := [byteTurn 2 [0x22], byteTurn 3 [0x22]] })
    ({ smallClient with pduRef := 3 }, { turns := [] }) (by decide +kernel) (by decide +kernel)
  refine ⟨_, _, probeOneOffset_eq hperforms rfl, hperforms, by decide, fun hreported => ?_⟩
  have hinc := hreported.inconclusive.mpr
    ⟨byteRead 0x11, by simp, byteRead 0x22, by simp, fun h => absurd h.2 (by decide)⟩
  exact absurd hinc (by decide)

end S7Comm
