import S7Comm.Lib.Runs
import S7Comm.Theorems.Compare
import S7Comm.Theorems.Dialogue

/-! `CompareRead` on servers that hold the same memory. The server takes every TSAP, so the candidates of a request that
    passes the checks all connect and all read the same bytes. The verdict is then about the memory alone. -/

namespace S7Comm
open Go

def CompareReadRequest.readAddress (req : CompareReadRequest) : Address := ⟨req.area, req.dbNumber, req.offset, req.size⟩

/-- The memory has the bytes of the address. -/
def Memory.Holds (mem : Memory) (addr : Address) (data : Bytes) : Prop :=
  addr.Accepted addr.size ∧
    if addr.size = 0 then data = [] else mem.readSpan addr addr.start.toNat addr.size.toNat = some data

/-- What a candidate has read from the memory, under its rack and slot. -/
structure ReadFrom (mem : Memory) (addr : Address) (cand : RackSlot) (c : CompareReadCandidate) : Prop where
  rackSlot : c.rack = cand.rack ∧ c.slot = cand.slot
  found : ∀ data, mem.Holds addr data → c.result.status = .success ∧ c.result.data = data
  missing : (∀ data, ¬mem.Holds addr data) → c.result.status ≠ .success

/-- A read of the store succeeds with the bytes of the address, or does not succeed. -/
theorem Reads.cases {mem : Memory} {addr : Address} {r : Res ReadResult} (h : Reads mem addr r) :
    (∃ out, r = .ok out ∧ (∀ data, mem.Holds addr data → out.status = .success ∧ out.data = data) ∧
        ((∀ data, ¬mem.Holds addr data) → out.status ≠ .success)) ∨
      (∃ e, r = .fail e) ∧ ∀ data, ¬mem.Holds addr data := by
  by_cases hacc : addr.Accepted addr.size
  swap
  · exact .inr ⟨h.refused hacc, fun _ hdata => hacc hdata.1⟩
  obtain ⟨-, -, size, -, -, hsize, -⟩ := validateAddress_ok hacc.1
  by_cases hzero : addr.size = 0
  · obtain ⟨out, hr, hstatus, hdata⟩ := h.empty hacc hzero
    refine .inl ⟨out, hr, fun data hheld => ⟨hstatus, ?_⟩, fun hnone => absurd ⟨hacc, ?_⟩ (hnone [])⟩
    · rw [hdata]
      exact ((if_pos hzero).mp hheld.2).symm
    · exact (if_pos hzero).mpr rfl
  · have hpos : 0 < addr.size := by omega
    cases hspan : mem.readSpan addr addr.start.toNat addr.size.toNat with
    | some span =>
      obtain ⟨out, hr, hstatus, hdata⟩ := h.found hacc hpos span hspan
      refine .inl ⟨out, hr, fun data hheld => ⟨hstatus, ?_⟩, fun hnone => absurd ⟨hacc, ?_⟩ (hnone span)⟩
      · rw [hdata]
        exact Option.some.inj (hspan.symm.trans ((if_neg hzero).mp hheld.2))
      · exact (if_neg hzero).mpr hspan
    | none =>
      obtain ⟨out, hr, hstatus⟩ := h.missing hacc hpos hspan
      refine .inl ⟨out, hr, fun data hheld => ?_, fun _ => by simp [hstatus]⟩
      cases hspan.symm.trans ((if_neg hzero).mp hheld.2)

/-! ### Checks -/

section Checks
variable {req : CompareReadRequest} {cand : RackSlot}

theorem validateCandidates_ok {i : Nat} {cands : List RackSlot} (h : validateCandidates i cands = .ok ()) :
    ∀ cand ∈ cands, validateRackSlot cand.rack cand.slot = .ok () := by
  induction cands generalizing i with
  | nil => exact List.forall_mem_nil _
  | cons cand cands ih =>
    unfold validateCandidates at h
    split at h
    · cases h
    · cases h
    · rename_i hcand
      exact List.forall_mem_cons.mpr ⟨hcand, ih h⟩

theorem validateRackSlot_bounds {rack slot : Int} (h : validateRackSlot rack slot = .ok ()) : 0 ≤ rack ∧ 0 ≤ slot := by
  unfold validateRackSlot at h
  split_ifs at h
  omega

/-- The candidates of a request that passes the checks can be connected to. -/
theorem options_usable (h : validateCompareReadRequest req = .ok ()) (hport : req.port ≤ 65535)
    (hcand : cand ∈ req.candidates) : (req.options cand).Usable := by
  unfold validateCompareReadRequest at h
  split_ifs at h with h₁ h₂ h₃ h₄ h₅ h₆
  have hvalid := validateCandidates_ok h cand hcand
  obtain ⟨hrack, hslot⟩ := validateRackSlot_bounds hvalid
  have hcalls : (0 : Int) ≤ 1 ∧ (1 : Int) ≤ 65535 := by decide
  refine ⟨?_, hcalls, hcalls⟩
  have hport' : ¬((req.options cand).port < 0 ∨ (req.options cand).port > 65535) := by
    unfold CompareReadRequest.options
    dsimp only
    split <;> omega
  have htimeout : ¬(req.options cand).timeout < 0 := by
    unfold CompareReadRequest.options
    dsimp only
    split <;> omega
  have hpdu : (req.options cand).maxPDU = 480 := rfl
  have hmanual : (req.options cand).autoRackSlot = false := rfl
  have hrackSlot : (req.options cand).rack = cand.rack ∧ (req.options cand).slot = cand.slot := ⟨rfl, rfl⟩
  unfold Options.validate
  rw [if_neg hport', if_neg htimeout, if_neg (by omega), if_neg (by simp [hmanual]), if_neg (by omega)]
  exact asValidation_eq_ok.mpr hvalid

theorem compareRead_eq_ok {γ σ : Type} {env : RackSlot → Env γ σ} {d : Comparison γ σ} {s₀ : CompareState}
    (h : compareRead env req = .ok (d, s₀)) :
    validateCompareReadRequest req = .ok () ∧ d = ⟨env, req⟩ ∧ s₀ = d.start := by
  obtain ⟨⟨⟩, hvalid, h⟩ := Outcome.bind_eq_ok.mp h
  cases h
  exact ⟨hvalid, rfl, rfl⟩

end Checks

/-! ### One candidate -/

section Candidate
variable (mem : Memory) (cfg : ServerConfig) {opts : Options}

/-- What the world was before the dial does not matter. -/
theorem connectOnce_held {rack slot : Int} (htsaps : ∃ tsaps, connectionTSAPs opts rack slot = .ok tsaps)
    (s : ClientSession Unit) (w : Link) :
    connectOnce (heldEnv mem cfg) opts rack slot (s, w) =
      connectOnce (linkEnv cfg) opts rack slot (s, { session := ⟨mem, cfg.maxPDUSize⟩ }) := by
  obtain ⟨tsaps, htsaps⟩ := htsaps
  have hhandshake : handshake (heldEnv mem cfg) opts rack slot w =
      handshake (linkEnv cfg) opts rack slot { session := ⟨mem, cfg.maxPDUSize⟩ } := by
    unfold handshake
    rw [htsaps]
    rfl
  unfold connectOnce
  rcases hrun : handshake (linkEnv cfg) opts rack slot { session := ⟨mem, cfg.maxPDUSize⟩ } with ⟨r, w'⟩
  rw [hrun] at hhandshake
  rw [Eff.bind_apply, Eff.bind_apply, Eff.onSnd_apply hrun, Eff.onSnd_apply hhandshake]
  rfl

theorem connect_held (hopts : opts.Usable) (hauto : opts.autoRackSlot = false) (w : Link) :
    ∃ h st', connect (heldEnv mem cfg) opts ({}, w) = (.ok h, st') ∧ Between opts (agreedPDU cfg opts) mem true st' := by
  have htsaps : ∃ tsaps, connectionTSAPs opts opts.rack opts.slot = .ok tsaps :=
    connectionTSAPs_ok (Options.validate_rackSlot hopts.valid hauto)
  unfold connect
  rw [hopts.valid, Eff.bind_ok (Eff.lift_apply _ _), if_neg (by simp [hauto]), connectOnce_held mem cfg htsaps]
  exact connectOnce_link hopts htsaps {} _

/-- Every candidate reads from the memory. -/
theorem compareCandidate_held {req : CompareReadRequest} {cand : RackSlot} (hopts : (req.options cand).Usable)
    (w : Link) :
    ∃ c, compareCandidate (heldEnv mem cfg) req cand w = some c ∧ ReadFrom mem req.readAddress cand c := by
  obtain ⟨h, st', hconnect, hst'⟩ := connect_held mem cfg hopts rfl w
  have hp : 25 ≤ agreedPDU cfg (req.options cand) := by
    have hmin : 240 ≤ cfg.maxPDUSize := cfg.min_le
    have hpdu : (req.options cand).maxPDU = 480 := rfl
    rw [agreedPDU, hpdu]
    omega
  have hp' : agreedPDU cfg (req.options cand) ≤ 4096 := Nat.le_trans (Nat.min_le_right _ _) cfg.le_max
  obtain ⟨r, hread, hreads⟩ := readArea_atRest cfg hp hp' mem req.readAddress
  obtain ⟨hrest, hr⟩ := hread _ hst'.atRest
  have hresult : (onClient (linkEnv cfg) (req.options cand) (readArea · req.readAddress) st').1 = _ :=
    (onClient_between hst' hrest).2
  obtain ⟨st'', hcall⟩ : ∃ st'', onClient (heldEnv mem cfg) (req.options cand)
      (readArea · ⟨req.area, req.dbNumber, req.offset, req.size⟩) st' = (r, st'') :=
    ⟨_, Prod.ext (hresult.trans hr) rfl⟩
  unfold compareCandidate
  rw [hconnect]
  dsimp only
  rw [hcall]
  obtain ⟨out, rfl, hfound, hmissing⟩ | ⟨⟨e, rfl⟩, hnone⟩ := hreads.cases
  · exact ⟨_, rfl, ⟨rfl, rfl⟩, hfound, hmissing⟩
  · refine ⟨_, rfl, ⟨rfl, rfl⟩, fun data hdata => absurd hdata (hnone data), fun _ => ?_⟩
    exact classifyOpError_ne_success e

end Candidate

/-! ### The verdict -/

/-- Two bytes of a data block. -/
def twoBytes : Memory := Memory.empty.set { area := areaDB, db := 1 } ⟨[0x12, 0x34], false⟩

def twoRequest : CompareReadRequest where
  address := "10.0.0.1"
  candidates := [⟨0, 1⟩, ⟨0, 2⟩]
  area := areaDB
  dbNumber := 1
  size := 2
  parallelism := 2

def twoComparison : Comparison Unit Link := ⟨fun _ => heldEnv twoBytes defaultConfig, twoRequest⟩

/-- The second candidate is read first. -/
def twoRun : List (CompareAction Link) :=
  [.main, .main, .main, .main, .read 1 { session := ⟨twoBytes, 0⟩ }, .read 0 { session := ⟨twoBytes, 0⟩ }, .reader 1,
    .reader 0, .reader 0, .reader 1, .main, .main]

def twoResult (slot : Int) : CompareReadCandidate :=
  ⟨0, slot, { status := .success, requestedLength := 2, returnedLength := 2, data := [0x12, 0x34] }⟩

def twoState : CompareState where
  main := .returned ⟨[some (twoResult 1), some (twoResult 2)], true⟩
  readers := [.done, .done]
  results := ⟨[some (twoResult 1), some (twoResult 2)], [0, 1]⟩

end S7Comm
