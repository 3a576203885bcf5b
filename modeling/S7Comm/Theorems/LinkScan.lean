import S7Comm.Theorems.LinkStore
import S7Comm.Theorems.ProbeReads

/-! A range scan of a memory that nobody else changes. All reads of a probe come to the same result, so that no probe is
    inconclusive or unstable, and the probes say exactly which spans the store has. -/

namespace S7Comm
open Go

section Scan
variable {cfg : ServerConfig} {p : Nat} {mem : Memory}

/-- What one read of a probe says about a span that is not empty. -/
structure ProbeSays (mem : Memory) (addr : Address) (res : ReadResult) : Prop where
  steady : res.status ≠ .inconclusive
  readable : res.status = .success ↔ addr.Accepted addr.size ∧
    (mem.readSpan addr addr.start.toNat addr.size.toNat).isSome
  data : res.status = .success → mem.readSpan addr addr.start.toNat addr.size.toNat = some res.data

theorem probeRead_atRest (cfg : ServerConfig) (hp : 25 ≤ p) (hp' : p ≤ 4096) (mem : Memory) (addr : Address)
    (hpos : 0 < addr.size) :
    ∃ res, Eff.Ends (AtRest p mem true) (probeRead (linkNet cfg true) addr) (fun r => r = .ok res) ∧
      ProbeSays mem addr res := by
  obtain ⟨out, hread, hout⟩ := readArea_atRest cfg hp hp' mem addr
  by_cases hacc : addr.Accepted addr.size
  · obtain ⟨res, rfl, hprobe⟩ : ∃ res, out = .ok res ∧ ProbeSays mem addr res := by
      cases hspan : mem.readSpan addr addr.start.toNat addr.size.toNat with
      | some d =>
        obtain ⟨res, rfl, hstatus, rfl⟩ := hout.found hacc hpos d hspan
        exact ⟨res, rfl, by simp [hstatus], by simp [hstatus, hacc, hspan], fun _ => hspan⟩
      | none =>
        obtain ⟨res, rfl, hstatus⟩ := hout.missing hacc hpos hspan
        exact ⟨res, rfl, by simp [hstatus], by simp [hstatus, hspan], by simp [hstatus]⟩
    refine ⟨res, ?_, hprobe⟩
    unfold probeRead
    refine (hread.mono fun r hr => ⟨_, hr, rfl⟩).attempt_ok.bind_ok ?_
    rintro _ ⟨_, rfl, rfl⟩
    exact Eff.ends_pure rfl
  · obtain ⟨e, rfl⟩ := hout.refused hacc
    have hne := classifyOpError_ne_success e
    refine ⟨newFailedReadResult addr.size.toNat e, ?_, classifyOpError_ne_inconclusive e, ?_, fun h => absurd h hne⟩
    · intro st hst
      obtain ⟨hst', hr⟩ := hread st hst
      unfold probeRead
      have hfail : readArea (linkNet cfg true) addr st = (.fail e, (readArea (linkNet cfg true) addr st).2) :=
        Prod.ext hr rfl
      rw [Eff.bind_ok (Eff.attempt_fail hfail)]
      exact ⟨hst', rfl⟩
    · exact ⟨fun h => absurd h hne, fun h => absurd h.1 hacc⟩

/-- The loop over the reads of a probe finds the same result each time. -/
theorem probeReads_atRest {addr : Address} {res : ReadResult}
    (hread : Eff.Ends (AtRest p mem true) (probeRead (linkNet cfg true) addr) fun r => r = .ok res) (pause : Bool)
    (left : Nat) (first : Bool) :
    Eff.Ends (AtRest p mem true) (probeReads (linkNet cfg true) addr pause left first) fun r =>
      r = .ok (.ok (List.replicate left res)) := by
  induction left generalizing first with
  | zero => exact Eff.ends_pure rfl
  | succ left ih =>
    unfold probeReads
    refine ctxErr_atRest.attempt_ok.bind_ok ?_
    rintro _ ⟨_, rfl, -⟩
    have hpause : Eff.Ends (AtRest p mem true)
        (if (pause && !first) = true then netErr (linkNet cfg true).wait else pure () : ClientM Link Unit) fun r =>
          ∃ a, r = .ok a ∧ True := by
      split
      · exact fun _ hst => ⟨hst, (), rfl, trivial⟩
      · exact Eff.ends_pure ⟨(), rfl, trivial⟩
    refine hpause.attempt_ok.bind_ok ?_
    rintro _ ⟨_, rfl, -⟩
    refine (hread.mono fun r hr => ⟨_, hr, rfl⟩).bind_ok ?_
    rintro _ rfl
    refine ((ih false).mono fun r hr => ⟨_, hr, rfl⟩).bind_ok ?_
    rintro _ rfl
    exact Eff.ends_pure rfl

theorem mixedReads_replicate (n : Nat) (res : ReadResult) : mixedReads (List.replicate n res) = false := by
  rw [mixedReads_eq_false]
  intro r hr s hs
  rw [List.eq_of_mem_replicate hr, List.eq_of_mem_replicate hs]
  exact ⟨rfl, rfl⟩

theorem probeOneOffset_atRest {req : RangeProbeRequest} {offset probeSize : Int64} {res : ReadResult}
    (hread : Eff.Ends (AtRest p mem true) (probeRead (linkNet cfg true) (req.probeAddress offset probeSize)) fun r =>
      r = .ok res) :
    ∃ obs, Eff.Ends (AtRest p mem true) (probeOneOffset (linkNet cfg true) req offset probeSize) (fun r => r = .ok obs) ∧
      obs.result = res ∧ obs.stable ≠ some false := by
  obtain ⟨n, hn⟩ : ∃ n, req.repeatCount = n + 1 :=
    Nat.exists_eq_succ_of_ne_zero (show req.repeatCount ≠ 0 by unfold RangeProbeRequest.repeatCount; omega)
  have hlast : (List.replicate (n + 1) res).getLast? = some res := by
    rw [List.replicate_succ', List.getLast?_concat]
  have hobs : (observe req.repeatCount (List.replicate (n + 1) res) res).result = res ∧
      (observe req.repeatCount (List.replicate (n + 1) res) res).stable ≠ some false := by
    unfold observe
    split
    · simp [mixedReads_replicate]
    · simp
  have hrepeated : repeatedResult req.repeatCount (List.replicate (n + 1) res) res = res := by
    simp [repeatedResult, mixedReads_replicate]
  have hretried (k : Nat) : retriedResult (List.replicate k res) res = res := by
    simp [retriedResult, mixedReads_replicate]
  refine ⟨observe req.repeatCount (List.replicate (n + 1) res) res, ?_, hobs⟩
  unfold probeOneOffset
  dsimp only
  rw [hn] at hrepeated ⊢
  refine ((probeReads_atRest hread _ _ _).mono fun r hr => ⟨_, hr, rfl⟩).bind_ok ?_
  rintro _ rfl
  simp only [hlast, hrepeated]
  split
  · refine ((probeReads_atRest hread _ _ _).mono fun r hr => ⟨_, hr, rfl⟩).bind_ok ?_
    rintro _ rfl
    simp only [hretried]
    exact Eff.ends_pure rfl
  · exact Eff.ends_pure rfl

theorem scanProbeSize_pos (req : RangeProbeRequest) : 0 < req.scanProbeSize.toInt := by
  unfold RangeProbeRequest.scanProbeSize
  split
  · decide
  · rename_i h
    rw [Int64.le_iff_toInt_le] at h
    exact Int.not_le.mp h

/-- The loop over the offsets, by induction on them. -/
theorem scanOffsets_atRest (cfg : ServerConfig) (hp : 25 ≤ p) (hp' : p ≤ 4096) (mem : Memory) (req : RangeProbeRequest)
    (offsets : List Int64) :
    ∃ probes, Eff.Ends (AtRest p mem true) (scanOffsets (linkNet cfg true) req req.scanProbeSize offsets)
        (fun r => r = .ok (.ok probes)) ∧
      probes.map (fun obs => (obs.offset, obs.request)) =
        offsets.map (fun o => (o, req.probeAddress o req.scanProbeSize)) ∧
      ∀ obs ∈ probes, Sees mem obs := by
  induction offsets with
  | nil => exact ⟨[], Eff.ends_pure rfl, rfl, List.forall_mem_nil _⟩
  | cons offset offsets ih =>
    obtain ⟨probes, hrun, hmap, hsees⟩ := ih
    obtain ⟨res, hread, hprobe⟩ := probeRead_atRest cfg hp hp' mem (req.probeAddress offset req.scanProbeSize)
      (scanProbeSize_pos req)
    obtain ⟨obs, hobs, rfl, hstable⟩ := probeOneOffset_atRest hread
    refine ⟨{ obs with offset, request := req.probeAddress offset req.scanProbeSize } :: probes, ?_, ?_, ?_⟩
    · unfold scanOffsets
      refine ctxErr_atRest.attempt_ok.bind_ok ?_
      rintro _ ⟨_, rfl, -⟩
      refine (hobs.mono fun r hr => ⟨_, hr, rfl⟩).bind_ok ?_
      rintro _ rfl
      refine (hrun.mono fun r hr => ⟨_, hr, rfl⟩).bind_ok ?_
      rintro _ rfl
      exact Eff.ends_pure rfl
    · rw [List.map_cons, List.map_cons, hmap]
    · exact List.forall_mem_cons.mpr ⟨⟨hprobe.steady, hstable, hprobe.readable, hprobe.data⟩, hsees⟩

/-- A scan sees the store. -/
theorem probeReadableRanges_atRest (hp : 25 ≤ p) (hp' : p ≤ 4096) (fuel : Nat) (req : RangeProbeRequest) :
    Eff.Ends (AtRest p mem true) (probeReadableRanges (linkNet cfg true) fuel req) (Scans mem fuel req) := by
  unfold probeReadableRanges
  cases hvalid : validateRangeProbeRequest req with
  | ok a =>
    refine (Eff.ends_lift (R := fun r => ∃ a, r = .ok a ∧ True) ⟨(), rfl, trivial⟩).bind_ok fun _ _ => ?_
    cases hoffsets : probeOffsets req.stop req.scanStep fuel req.start with
    | none =>
      refine Eff.ends_pure fun offsets _ h => ?_
      rw [hoffsets] at h
      cases h
    | some offsets =>
      obtain ⟨probes, hrun, hmap, hsees⟩ := scanOffsets_atRest cfg hp hp' mem req offsets
      have hscan : Eff.Ends (AtRest p mem true) (scanAt (linkNet cfg true) req offsets) fun r =>
          ∃ a, r = .ok a ∧ a.2 = none ∧ a.1.probes = probes := by
        unfold scanAt
        refine Eff.ends_get.bind_ok ?_
        rintro ⟨c, w⟩ hst
        dsimp only
        rw [if_neg (by simp [show c.connected = true from hst.connected])]
        refine (hrun.mono fun r hr => ⟨_, hr, rfl⟩).bind_ok ?_
        rintro _ rfl
        exact Eff.ends_pure ⟨_, rfl, rfl, rfl⟩
      refine hscan.bind_ok ?_
      rintro ⟨out, _⟩ ⟨rfl, rfl⟩
      refine Eff.ends_pure fun offsets' _ h => ?_
      rw [hoffsets] at h
      cases h
      exact ⟨out, rfl, hmap, hsees⟩
  | fail e =>
    refine ((Eff.ends_lift (R := Eff.Failed) ⟨e, rfl⟩).bind_failed _).mono ?_
    rintro r - offsets h
    cases hvalid.symm.trans h
  | panic =>
    intro st hst
    exact ⟨hst, fun offsets h => by cases hvalid.symm.trans h⟩

end Scan
end S7Comm
