import S7Comm.Client.Probe
import S7Comm.Theorems.Connect

/-! The probe of one rack and slot. It does what a new client does that connects and closes again, and its result says
    how far that came. -/

namespace S7Comm
open Go

/-! ### Requests -/

section Requests
variable {req : RackSlotProbeRequest} {job : ProbeJob}

theorem mem_loopRange {lo hi x : Int} : x ∈ loopRange lo hi ↔ lo ≤ x ∧ x ≤ hi := by
  rw [loopRange, List.mem_map]
  constructor
  · rintro ⟨k, hk, rfl⟩
    have := List.mem_range.mp hk
    omega
  · rintro ⟨hlo, hhi⟩
    refine ⟨(x - lo).toNat, List.mem_range.mpr (by omega), by omega⟩

theorem mem_jobs : job ∈ req.jobs ↔
    (req.rackMin ≤ job.rack ∧ job.rack ≤ req.rackMax) ∧ req.slotMin ≤ job.slot ∧ job.slot ≤ req.slotMax := by
  simp only [RackSlotProbeRequest.jobs, List.mem_flatMap, List.mem_map, mem_loopRange]
  constructor
  · rintro ⟨rack, hrack, slot, hslot, rfl⟩
    exact ⟨hrack, hslot⟩
  · rintro ⟨hrack, hslot⟩
    exact ⟨job.rack, hrack, job.slot, hslot, rfl⟩

/-- What the checks leave. -/
structure Checked (req : RackSlotProbeRequest) : Prop where
  port : 0 ≤ req.port ∧ req.port ≤ 65535
  racks : 0 ≤ req.rackMin ∧ req.rackMin ≤ req.rackMax ∧ req.rackMax ≤ 7
  slots : 0 ≤ req.slotMin ∧ req.slotMin ≤ req.slotMax ∧ req.slotMax ≤ 31
  timeout : 0 ≤ req.timeout
  attempts : 0 ≤ req.maxAttemptsPerHost

theorem checked_of_validate (h : validateRackSlotProbeRequest req = .ok ()) : Checked req := by
  simp only [validateRackSlotProbeRequest, Outcome.ite_fail_eq_ok] at h
  constructor <;> omega

end Requests

/-! ### Results -/

/-- How far a probe came, and what its result says about it. -/
inductive Ladder (strict : Bool) : ProbeStage → ProbeStatus → Confidence → Prop
  | refused : Ladder strict .unset .rejected .none
  | dial : Ladder strict .tcp .unreachable .none
  | dialTimeout : Ladder strict .tcp .timeout .none
  | handshake : Ladder strict .cotp .tcpOnly .none
  | handshakeTimeout : Ladder strict .cotp .timeout .none
  | setup : Ladder strict .setup .cotpOnly .none
  | setupRejected : Ladder strict .setup .rejected .none
  | setupTimeout : Ladder strict .setup .timeout .none
  | accepted : strict = false → Ladder strict .setup .setupOnly .low
  | unconfirmed : strict = true → Ladder strict .query .validConnect .low
  | confirmed : strict = true → Ladder strict .query .validQuery .high

section Results
variable {τ γ σ : Type} {env : ProbeEnv τ γ σ} {req : RackSlotProbeRequest} {w w' : σ} {c c' : RackSlotCandidate}

/-- The result of a probe, of this rack and slot. -/
structure ResultOf (req : RackSlotProbeRequest) (rack slot : Int) (c : RackSlotCandidate) : Prop where
  rackSlot : c.rack = rack ∧ c.slot = slot
  ladder : Ladder req.strict c.stage c.status c.confidence

theorem probeConn_result {conn : γ} (hc : c.confidence = .none) (h : probeConn env req conn c w = (.ok c', w')) :
    ResultOf req c.rack c.slot c' := by
  unfold probeConn at h
  obtain ⟨r, w₁, -, h⟩ := Eff.bind_eq_ok.mp h
  cases r with
  | error err =>
    cases h
    refine ⟨⟨rfl, rfl⟩, ?_⟩
    dsimp only
    rw [hc]
    split_ifs
    · exact .setupTimeout
    · exact .setupRejected
    · exact .setup
  | ok setup =>
    dsimp only at h
    cases hstrict : req.strict with
    | false =>
      rw [hstrict] at h
      cases h
      exact ⟨⟨rfl, rfl⟩, .accepted hstrict⟩
    | true =>
      rw [hstrict] at h
      obtain ⟨⟨ok, confirmedBy, errStr⟩, w₂, -, h⟩ := Eff.bind_eq_ok.mp h
      cases ok with
      | true =>
        cases h
        exact ⟨⟨rfl, rfl⟩, .confirmed hstrict⟩
      | false =>
        cases h
        exact ⟨⟨rfl, rfl⟩, .unconfirmed hstrict⟩

theorem probeDial_result (hc : c.confidence = .none) (h : probeDial env req c w = (.ok c', w')) :
    ResultOf req c.rack c.slot c' := by
  unfold probeDial at h
  obtain ⟨r, w₁, -, h⟩ := Eff.bind_eq_ok.mp h
  cases r with
  | error err =>
    cases h
    refine ⟨⟨rfl, rfl⟩, ?_⟩
    dsimp only
    rw [hc]
    split_ifs
    · exact .dialTimeout
    · exact .dial
  | ok raw =>
    obtain ⟨r, w₂, -, h⟩ := Eff.bind_eq_ok.mp h
    cases r with
    | error err =>
      cases h
      refine ⟨⟨rfl, rfl⟩, ?_⟩
      dsimp only
      rw [hc]
      split_ifs
      · exact .handshakeTimeout
      · exact .handshake
    | ok conn =>
      obtain ⟨w₃, h⟩ := Eff.deferred_eq_ok h
      exact probeConn_result hc h

theorem probeOne_result {rack slot : Int} (h : probeOne env req rack slot w = (.ok c, w')) :
    ResultOf req rack slot c := by
  unfold probeOne at h
  obtain ⟨r, w₁, -, h⟩ := Eff.bind_eq_ok.mp h
  cases r with
  | error err =>
    cases h
    exact ⟨⟨rfl, rfl⟩, .refused⟩
  | ok tsaps => exact probeDial_result rfl h

end Results

/-! ### Probing and connecting -/

/-- The client connects to what the probe is about. -/
structure SameTarget (req : RackSlotProbeRequest) (job : ProbeJob) (opts : Options) : Prop where
  rack : opts.rack = job.rack
  slot : opts.slot = job.slot
  port : opts.port = req.port
  timeout : opts.timeout = req.timeout
  manual : opts.autoRackSlot = false
  tsaps : connectionTSAPs opts job.rack job.slot = probeTSAPs req job.rack job.slot
  offer : opts.maxPDU = 480 ∧ opts.maxAmqCalling = 1 ∧ opts.maxAmqCalled = 1

section Connecting
variable {τ γ σ : Type} {env : ProbeEnv τ γ σ} {req : RackSlotProbeRequest} {job : ProbeJob} {opts : Options}

theorem validateRackSlot_ok {rack slot : Int} (hrack : 0 ≤ rack ∧ rack ≤ 7) (hslot : 0 ≤ slot ∧ slot ≤ 31) :
    validateRackSlot rack slot = .ok () := by
  unfold validateRackSlot
  rw [if_neg (by omega), if_neg (by omega)]

theorem Checked.inRange (h : Checked req) (hjob : job ∈ req.jobs) :
    (0 ≤ job.rack ∧ job.rack ≤ 7) ∧ 0 ≤ job.slot ∧ job.slot ≤ 31 := by
  obtain ⟨hrack, hslot⟩ := mem_jobs.mp hjob
  have hracks := h.racks
  have hslots := h.slots
  omega

theorem exists_givenTSAP (given : Option UInt16) {built : Res UInt16} (h : ∃ tsap, built = .ok tsap) :
    ∃ tsap, givenTSAP given built = .ok tsap := by
  cases given with
  | none => exact h
  | some tsap => exact ⟨tsap, rfl⟩

/-- The TSAPs of the jobs of a request that passed the checks are in range. -/
theorem Checked.tsaps (h : Checked req) (hjob : job ∈ req.jobs) :
    ∃ l r, probeTSAPs req job.rack job.slot = .ok (l, r) := by
  obtain ⟨hrack, hslot⟩ := h.inRange hjob
  have hremote : ∃ tsap, buildTSAP 3 job.rack job.slot = .ok tsap := by
    rw [buildTSAP, validateRackSlot_ok hrack hslot]
    exact ⟨_, rfl⟩
  have hlocal : ∃ tsap, buildTSAP 1 0 0 = .ok tsap := ⟨_, rfl⟩
  obtain ⟨l, hl⟩ := exists_givenTSAP req.localTSAP hlocal
  obtain ⟨r, hr⟩ := exists_givenTSAP req.remoteTSAP hremote
  refine ⟨l, r, ?_⟩
  rw [probeTSAPs, hl, Outcome.ok_bind, hr]
  rfl

/-- The options of the client pass its own checks. -/
theorem SameTarget.validate (h : SameTarget req job opts) (hreq : Checked req) (hjob : job ∈ req.jobs) :
    opts.validate = .ok () := by
  obtain ⟨hrack, hslot⟩ := hreq.inRange hjob
  have hport := hreq.port
  have htimeout := hreq.timeout
  unfold Options.validate
  rw [h.manual, h.rack, h.slot, h.port, h.timeout, h.offer.1, if_neg (by omega), if_neg (by omega), if_neg (by omega),
    if_neg Bool.false_ne_true, if_neg (by omega), validateRackSlot_ok hrack hslot]
  rfl

/-- A new client that connects by hand makes one handshake. -/
theorem connect_manual {env : Env γ σ} (hvalid : opts.validate = .ok ()) (hmanual : opts.autoRackSlot = false) (w : σ) :
    connect env opts ({}, w) = connectOnce env opts opts.rack opts.slot ({}, w) := by
  rw [connect, hvalid]
  refine (Eff.bind_ok (Eff.lift_apply _ _)).trans ?_
  rw [if_neg (by simp [hmanual])]

theorem connectOnce_fail {env : Env γ σ} {rack slot : Int} {w w' : σ} {err : GoError}
    (h : handshake env opts rack slot w = (.fail err, w')) :
    connectOnce env opts rack slot ({}, w) = (.fail err, ({}, w')) :=
  Eff.bind_fail (Eff.onSnd_apply h _)

theorem connectOnce_panic {env : Env γ σ} {rack slot : Int} {w w' : σ}
    (h : handshake env opts rack slot w = (.panic, w')) :
    connectOnce env opts rack slot ({}, w) = (.panic, ({}, w')) :=
  Eff.bind_panic (Eff.onSnd_apply h _)

theorem probeOne_of_tsaps {l r : UInt16} (h : probeTSAPs req job.rack job.slot = .ok (l, r)) (w : σ) :
    probeOne env req job.rack job.slot w =
      probeDial env req { rack := job.rack, slot := job.slot, localTSAP := l, remoteTSAP := r, confidence := .none } w := by
  refine (Eff.bind_ok (Eff.attempt_ok (a := (l, r)) ?_)).trans rfl
  rw [Eff.lift_apply, h]

theorem closeSession_world {env : Env γ σ} {s : ClientSession γ} {conn : γ} (h : s.conn = some conn) (w : σ) :
    (closeSession env (s, w)).2.2 = (env.closeCOTP (some conn) w).2 := by
  simp only [closeSession, h]
  rcases env.closeCOTP (some conn) w with ⟨_ | err, w'⟩ <;> rfl

section Stages
variable {l r : UInt16} {raw : τ} {conn : γ} {err : GoError} {w w₁ w₂ w₃ : σ} {rack slot : Int}
  {c : RackSlotCandidate}

theorem dialCOTP_error (h : env.dialTCP w = (.error err, w₁)) : env.dialCOTP l r w = (.error err, w₁) := by
  rw [ProbeEnv.dialCOTP, h]

theorem dialCOTP_ok (h : env.dialTCP w = (.ok raw, w₁)) : env.dialCOTP l r w = env.connectCOTP raw l r w₁ := by
  rw [ProbeEnv.dialCOTP, h]

theorem handshake_dial_error {env : Env γ σ} (htsaps : connectionTSAPs opts rack slot = .ok (l, r))
    (h : env.dialCOTP l r w = (.error err, w₁)) : handshake env opts rack slot w = (.fail err, w₁) := by
  unfold handshake
  rw [htsaps]
  exact (Eff.bind_ok (Eff.lift_apply _ _)).trans (Eff.bind_fail (worldVal_fail h))

/-- A handshake on a connection, after the setup. -/
theorem handshake_dialed {env : Env γ σ} (htsaps : connectionTSAPs opts rack slot = .ok (l, r))
    (h : env.dialCOTP l r w = (.ok conn, w₁)) {x : Outcome GoError SetupCommResponse}
    (hsetup : performS7Setup env conn 1 opts.maxAmqCalling opts.maxAmqCalled opts.maxPDU w₁ = (x, w₂)) :
    (∀ setup, x = .ok setup → handshake env opts rack slot w = (.ok ⟨conn, rack, slot, l, r, setup⟩, w₂)) ∧
    (∀ err, x = .fail err → handshake env opts rack slot w =
      (.fail (.wrap ("S7 setup: " ++ err.error) err), (env.closeCOTP (some conn) w₂).2)) ∧
    (x = .panic → handshake env opts rack slot w = (.panic, w₂)) := by
  unfold handshake
  rw [htsaps]
  refine ⟨?_, ?_, ?_⟩
  · rintro setup rfl
    refine (Eff.bind_ok (Eff.lift_apply _ _)).trans ((Eff.bind_ok (worldVal_ok h)).trans ?_)
    exact Eff.bind_ok (Eff.attempt_ok hsetup)
  · rintro err rfl
    refine (Eff.bind_ok (Eff.lift_apply _ _)).trans ((Eff.bind_ok (worldVal_ok h)).trans ?_)
    exact Eff.bind_ok (Eff.attempt_fail hsetup)
  · rintro rfl
    refine (Eff.bind_ok (Eff.lift_apply _ _)).trans ((Eff.bind_ok (worldVal_ok h)).trans ?_)
    exact Eff.bind_panic (Eff.attempt_panic hsetup)

theorem probeDial_unreachable (h : env.dialTCP w = (.error err, w₁)) :
    probeDial env req c w = (.ok { c with
      stage := .tcp, status := if isProbeTimeout err then .timeout else .unreachable, error := err.error }, w₁) :=
  Eff.bind_ok (Eff.attempt_fail (worldVal_fail h))

theorem probeDial_refused (h : env.dialTCP w = (.ok raw, w₁))
    (hcotp : env.connectCOTP raw c.localTSAP c.remoteTSAP w₁ = (.error err, w₂)) :
    probeDial env req c w = (.ok { c with
      stage := .cotp, status := if isProbeTimeout err then .timeout else .tcpOnly, error := err.error }, w₂) :=
  (Eff.bind_ok (Eff.attempt_ok (worldVal_ok h))).trans (Eff.bind_ok (Eff.attempt_fail (worldVal_fail hcotp)))

/-- A probe on a connection, which is closed in the end. -/
theorem probeDial_conn (h : env.dialTCP w = (.ok raw, w₁))
    (hcotp : env.connectCOTP raw c.localTSAP c.remoteTSAP w₁ = (.ok conn, w₂))
    {x : Outcome GoError RackSlotCandidate} (hconn : probeConn env req conn c w₂ = (x, w₃)) :
    probeDial env req c w = (x, (env.client.closeCOTP (some conn) w₃).2) := by
  refine (Eff.bind_ok (Eff.attempt_ok (worldVal_ok h))).trans ((Eff.bind_ok (Eff.attempt_ok (worldVal_ok hcotp))).trans ?_)
  dsimp only
  rw [Eff.deferred, hconn]
  rfl

theorem probeConn_setup_error (h : performS7Setup env.client conn 1 1 1 480 w = (.fail err, w₁)) :
    probeConn env req conn c w = (.ok { c with
      stage := .setup
      status := if isProbeTimeout err then .timeout else if err.isS7 then .rejected else .cotpOnly
      error := err.error }, w₁) :=
  Eff.bind_ok (Eff.attempt_fail h)

theorem probeConn_accepted (hstrict : req.strict = false) {setup : SetupCommResponse}
    (h : performS7Setup env.client conn 1 1 1 480 w = (.ok setup, w₁)) :
    probeConn env req conn c w = (.ok { c with
      pduSize := setup.pduSize, stage := .setup, status := .setupOnly, confidence := .low }, w₁) := by
  refine (Eff.bind_ok (Eff.attempt_ok h)).trans ?_
  rw [hstrict]
  rfl

theorem probeConn_panic (h : performS7Setup env.client conn 1 1 1 480 w = (.panic, w₁)) :
    probeConn env req conn c w = (.panic, w₁) :=
  Eff.bind_panic (Eff.attempt_panic h)

end Stages

end Connecting

/-- What the result of a probe says about a handshake. -/
def probeReport (job : ProbeJob) {γ : Type} (h : Handshake γ) : RackSlotCandidate where
  rack := job.rack
  slot := job.slot
  localTSAP := h.localTSAP
  remoteTSAP := h.remoteTSAP
  stage := .setup
  status := .setupOnly
  pduSize := h.setup.pduSize
  confidence := .low

/-- A probe that is not strict and a new client that connects and closes again do the same. Where the client connects,
    the probe reports the TSAPs and the PDU size of its handshake, and leaves the network as the client does after it is
    closed; where the client fails, the probe reports the error, and leaves the network as the client does. -/
theorem probe_connects {τ γ σ : Type} {env : ProbeEnv τ γ σ} {req : RackSlotProbeRequest}
    (hreq : validateRackSlotProbeRequest req = .ok ()) (hstrict : req.strict = false) {job : ProbeJob}
    (hjob : job ∈ req.jobs) {opts : Options} (hsame : SameTarget req job opts) (w : σ) :
    (∀ h s w', connect env.client opts ({}, w) = (.ok h, (s, w')) →
      probeOne env req job.rack job.slot w = (.ok (probeReport job h), (closeSession env.client (s, w')).2.2)) ∧
    (∀ err s w', connect env.client opts ({}, w) = (.fail err, (s, w')) →
      ∃ c, probeOne env req job.rack job.slot w = (.ok c, w') ∧ c.accepted = false ∧
        (err.error = c.error ∨ err.error = "S7 setup: " ++ c.error)) ∧
    (∀ s, connect env.client opts ({}, w) = (.panic, s) → (probeOne env req job.rack job.slot w).1 = .panic) := by
  have hchecked := checked_of_validate hreq
  obtain ⟨l, r, htsaps⟩ := hchecked.tsaps hjob
  have htsaps' : connectionTSAPs opts opts.rack opts.slot = .ok (l, r) := by
    rw [hsame.rack, hsame.slot, hsame.tsaps, htsaps]
  rw [probeOne_of_tsaps htsaps, connect_manual (hsame.validate hchecked hjob) hsame.manual]
  rcases hdial : env.dialTCP w with ⟨err | raw, w₁⟩
  · rw [connectOnce_fail (handshake_dial_error htsaps' (dialCOTP_error hdial)), probeDial_unreachable hdial]
    refine ⟨nofun, ?_, nofun⟩
    rintro _ _ _ ⟨⟩
    refine ⟨_, rfl, ?_, .inl rfl⟩
    dsimp only [RackSlotCandidate.accepted]
    split_ifs <;> rfl
  rcases hcotp : env.connectCOTP raw l r w₁ with ⟨err | conn, w₂⟩
  · have hdialed : env.client.dialCOTP l r w = (.error err, w₂) := (dialCOTP_ok hdial).trans hcotp
    rw [connectOnce_fail (handshake_dial_error htsaps' hdialed), probeDial_refused hdial hcotp]
    refine ⟨nofun, ?_, nofun⟩
    rintro _ _ _ ⟨⟩
    refine ⟨_, rfl, ?_, .inl rfl⟩
    dsimp only [RackSlotCandidate.accepted]
    split_ifs <;> rfl
  have hdialed : env.client.dialCOTP l r w = (.ok conn, w₂) := (dialCOTP_ok hdial).trans hcotp
  rcases hsetup : performS7Setup env.client conn 1 1 1 480 w₂ with ⟨x, w₃⟩
  have hsetup' : performS7Setup env.client conn 1 opts.maxAmqCalling opts.maxAmqCalled opts.maxPDU w₂ = (x, w₃) := by
    rw [hsame.offer.1, hsame.offer.2.1, hsame.offer.2.2, hsetup]
  obtain ⟨hok, hfail, hpanic⟩ := handshake_dialed htsaps' hdialed hsetup'
  cases x with
  | ok setup =>
    have honce := Eff.bind_ok (f := fun h => do swapIn env.client h; pure h) (Eff.onSnd_apply (hok setup rfl) {})
    rw [connectOnce, honce, probeDial_conn hdial hcotp (probeConn_accepted hstrict hsetup)]
    refine ⟨?_, nofun, nofun⟩
    rintro _ _ _ ⟨⟩
    rw [closeSession_world rfl]
    rfl
  | fail err =>
    rw [connectOnce_fail (hfail err rfl), probeDial_conn hdial hcotp (probeConn_setup_error hsetup)]
    refine ⟨nofun, ?_, nofun⟩
    rintro _ _ _ ⟨⟩
    refine ⟨_, rfl, ?_, .inr rfl⟩
    dsimp only [RackSlotCandidate.accepted]
    split_ifs <;> rfl
  | panic =>
    rw [connectOnce_panic (hpanic rfl), probeDial_conn hdial hcotp (probeConn_panic hsetup)]
    exact ⟨nofun, nofun, fun _ _ => rfl⟩

/-- A peer that takes one connection and refuses the next. -/
def oneConnection : ProbeEnv Nat Nat Nat where
  ctxErr w := (none, w)
  wait w := (none, w)
  dialContext n := if n < 1 then (.ok n, n + 1) else (.error (.net false "connection refused"), n + 1)
  connectCOTP raw _ _ w := (.ok raw, w)
  writeTSDU _ _ w := (none, w)
  readTSDU _ w := (.ok ([0x32, rosctrAckData, 0, 0, 0, 1, 0, 8, 0, 0, 0, 0] ++ [funcSetupComm, 0, 0, 1, 0, 2, 0, 240]), w)
  close _ w := (none, w)

/-- The session of a client on this connection. -/
def onceSession : ClientSession Nat where
  conn := some 0
  slot := 1
  localTSAP := 0x0100
  remoteTSAP := 0x0301
  pduSize := 240
  maxAmqCalling := 1
  maxAmqCalled := 2

theorem probe_connects_once :
    (∃ h, probeOne oneConnection (defaultRackSlotProbeRequest "10.0.0.1") 0 1 0 =
      (.ok (probeReport ⟨0, 1⟩ (γ := Nat) h), 1) ∧ h.setup.pduSize = 240) ∧
    ∃ c, probeOne oneConnection (defaultRackSlotProbeRequest "10.0.0.1") 0 1 1 = (.ok c, 2) ∧ c.accepted = false := by
  have hreq : validateRackSlotProbeRequest (defaultRackSlotProbeRequest "10.0.0.1") = .ok () := by decide
  have hjob : (⟨0, 1⟩ : ProbeJob) ∈ (defaultRackSlotProbeRequest "10.0.0.1").jobs := mem_jobs.mpr (by decide)
  have hsame : SameTarget (defaultRackSlotProbeRequest "10.0.0.1") ⟨0, 1⟩ { timeout := 2000000000 } :=
    ⟨rfl, rfl, rfl, rfl, rfl, rfl, ⟨rfl, rfl, rfl⟩⟩
  have hfirst : connect oneConnection.client { timeout := 2000000000 } ({}, 0) =
      (.ok ⟨0, 0, 1, 0x0100, 0x0301, ⟨1, 2, 240⟩⟩, (onceSession, 1)) := by
    decide +kernel
  have hsecond : connect oneConnection.client { timeout := 2000000000 } ({}, 1) =
      (.fail (.wrap "TCP connect: connection refused" (.net false "connection refused")), ({}, 2)) := by
    decide +kernel
  refine ⟨⟨_, (probe_connects hreq rfl hjob hsame 0).1 _ _ _ hfirst, rfl⟩, ?_⟩
  obtain ⟨c, hc, hnot, -⟩ := (probe_connects hreq rfl hjob hsame 1).2.1 _ _ _ hsecond
  exact ⟨c, hc, hnot⟩

end S7Comm
