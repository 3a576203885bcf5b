import S7Comm.System.Ledger
import S7Comm.Theorems.CalmCalls
import S7Comm.Theorems.Connect

/-! A client keeps account of its connections: a connection that is dialed is closed again, or it is the one of the
    session; none is closed twice, and none is used after it was closed. -/

namespace S7Comm
open Go

section Ledger
variable {l : Ledger} {n : Nat}

theorem Ledger.mem_dial (l : Ledger) : l.dialed ∈ l.dial.live := List.mem_cons_self ..

theorem Ledger.use_of_mem (h : n ∈ l.live) : l.use n = l := if_pos h

/-- Closing the connection that was dialed last leaves only its number behind. -/
theorem Ledger.close_dial (l : Ledger) : l.dial.close l.dialed = { l with dialed := l.dialed + 1 } := by
  unfold Ledger.close
  rw [if_pos l.mem_dial]
  simp [Ledger.dial]

theorem Ledger.Holds.tried {conn : Option Nat} (h : l.Holds conn) :
    Ledger.Holds { l with dialed := l.dialed + 1 } conn :=
  ⟨h.sound, h.live, fun n hn => Nat.lt_succ_of_lt (h.numbered n hn)⟩

end Ledger

/-! ### Handshakes -/

section Handshakes
variable {γ σ : Type} {env : Env γ σ} {opts : Options}

/-- The setup of a connection uses only that connection. -/
theorem performS7Setup_ledger (env : Env γ σ) {l : Ledger} {n : Nat} (hn : n ∈ l.live) (conn : γ) (ref : UInt16)
    (maxAmqCalling maxAmqCalled maxPDU : Int) :
    Eff.Calm True (fun st => st.2 = l) (performS7Setup env.ledgered (n, conn) ref maxAmqCalling maxAmqCalled maxPDU) := by
  have huse (st : σ × Ledger) (h : st.2 = l) : st.2.use n = l := by rw [h, Ledger.use_of_mem hn]
  exact performS7Setup_calm env.ledgered (n, conn) (fun _ h => h) (fun _ => huse) huse _ _ _ _

/-- A handshake ends with a connection that it has dialed, or without one: then none was dialed, or it is closed. -/
inductive ShakeEnds (l : Ledger) : Outcome GoError (Handshake (Nat × γ)) → Ledger → Prop where
  | undialed {r : Outcome GoError (Handshake (Nat × γ))} (bad : ∀ h, r ≠ .ok h) : ShakeEnds l r l
  | closed {r : Outcome GoError (Handshake (Nat × γ))} (bad : ∀ h, r ≠ .ok h) :
    ShakeEnds l r { l with dialed := l.dialed + 1 }
  | done {h : Handshake (Nat × γ)} (number : h.conn.1 = l.dialed) : ShakeEnds l (.ok h) l.dial

theorem handshake_ledger (env : Env γ σ) (opts : Options) (rack slot : Int) (w : σ) (l : Ledger) :
    ShakeEnds l (handshake env.ledgered opts rack slot (w, l)).1 (handshake env.ledgered opts rack slot (w, l)).2.2 := by
  unfold handshake
  rcases htsaps : connectionTSAPs opts rack slot with ⟨localTSAP, remoteTSAP⟩ | err | _
  · rw [Eff.bind_ok (Eff.lift_apply _ _)]
    dsimp only
    rcases hdial : env.dialCOTP localTSAP remoteTSAP w with ⟨err | conn, w₁⟩
    · have hfail : env.ledgered.dialCOTP localTSAP remoteTSAP (w, l) = (.error err, (w₁, l)) := by
        simp only [Env.ledgered, hdial]
      rw [Eff.bind_fail (worldVal_fail hfail)]
      exact .undialed (by simp)
    · have hok : env.ledgered.dialCOTP localTSAP remoteTSAP (w, l) = (.ok (l.dialed, conn), (w₁, l.dial)) := by
        simp only [Env.ledgered, hdial]
      rw [Eff.bind_ok (worldVal_ok hok)]
      have hsetup := performS7Setup_ledger env l.mem_dial conn 1 opts.maxAmqCalling opts.maxAmqCalled
        opts.maxPDU (w₁, l.dial) rfl
      rcases hrun : performS7Setup env.ledgered (l.dialed, conn) 1 opts.maxAmqCalling opts.maxAmqCalled opts.maxPDU
        (w₁, l.dial) with ⟨setup | err | _, w₂, l₂⟩ <;> rw [hrun] at hsetup <;> obtain rfl : l₂ = l.dial := hsetup.1
      · rw [Eff.bind_ok (Eff.attempt_ok hrun)]
        exact .done rfl
      · rw [Eff.bind_ok (Eff.attempt_fail hrun)]
        have hclosed : (ShakeEnds l (.fail (.wrap ("S7 setup: " ++ err.error) err) : Outcome GoError (Handshake (Nat × γ)))
            (l.dial.close l.dialed)) := by
          rw [Ledger.close_dial]
          exact .closed (by simp)
        exact hclosed
      · exact absurd rfl (hsetup.2 trivial)
  · exact .undialed (by simp)
  · exact .undialed (by simp)

/-- Handshakes that do not succeed leave no connection open. -/
theorem NoHandshake.holds {conn : Option Nat} {st st' : σ × Ledger} (h : NoHandshake env.ledgered opts st st')
    (hst : st.2.Holds conn) : st'.2.Holds conn := by
  induction h with
  | none => exact hst
  | checked before check ih =>
    cases check
    exact ih
  | @failed st₁ st₂ rack slot r before shake bad ih =>
    have hends := handshake_ledger env opts rack slot st₁.1 st₁.2
    rw [show handshake env.ledgered opts rack slot (st₁.1, st₁.2) = _ from shake] at hends
    generalize st₂.2 = l₂ at hends ⊢
    cases hends with
    | undialed => exact ih
    | closed => exact ih.tried
    | done => exact absurd rfl (bad _)

end Handshakes

/-! ### Actions -/

section Actions
variable {γ σ : Type} {env : Env γ σ} {opts : Options}

/-- The ledger is that of the session: its connection, if it has one, is the only one that is open. -/
def Accounted (st : ClientSession (Nat × γ) × (σ × Ledger)) : Prop := st.2.2.Holds (st.1.conn.map Prod.fst)

theorem closeSession_accounted {st : ClientSession (Nat × γ) × (σ × Ledger)} (h : Accounted st) :
    Accounted (closeSession env.ledgered st).2 := by
  obtain ⟨s, w, l⟩ := st
  unfold closeSession
  dsimp only
  rcases hconn : s.conn with _ | ⟨n, conn⟩
  · exact h
  · have hl : l.Holds (some n) := by simpa [Accounted, hconn] using h
    have hclose : (l.close n).Holds none := by
      unfold Ledger.close
      rw [if_pos (by simp [hl.live])]
      exact ⟨hl.sound, by simp [hl.live], by simp⟩
    dsimp only [Env.closeCOTP, Env.ledgered]
    rcases (env.close conn w).1 with _ | err <;> exact hclose

/-- The new connection of a session is the only one that is open, once the old one is closed. -/
theorem swapped_holds (env : Env γ σ) {l : Ledger} {old : Option (Nat × γ)} (h : l.Holds (old.map Prod.fst)) (w : σ) :
    (env.ledgered.closeCOTP old (w, l.dial)).2.2.Holds (some l.dialed) := by
  rcases old with _ | ⟨n, conn⟩
  · exact ⟨h.sound, by simp [Env.closeCOTP, Ledger.dial, h.live], by simp [Env.closeCOTP, Ledger.dial]⟩
  · have hlt : n < l.dialed := h.numbered n (by simp)
    have hmem : n ∈ l.dial.live := by simp [Ledger.dial, h.live]
    show (l.dial.close n).Holds (some l.dialed)
    unfold Ledger.close
    rw [if_pos hmem]
    refine ⟨h.sound, ?_, by simp [Ledger.dial]⟩
    simp [Ledger.dial, h.live, Nat.ne_of_gt hlt]

theorem connect_accounted {st : ClientSession (Nat × γ) × (σ × Ledger)} (h : Accounted st) :
    Accounted (connect env.ledgered opts st).2 := by
  obtain ⟨s, world⟩ := st
  have hends : ConnectEnds env.ledgered opts s world (connect env.ledgered opts (s, world)) := connect_ends s world
  generalize connect env.ledgered opts (s, world) = res at hends ⊢
  cases hends with
  | failed err before => exact before.holds h
  | crashed before => exact before.holds h
  | @swapped rack slot w₁ w₂ hs before done =>
    have hl := before.holds h
    have hshake := handshake_ledger env opts rack slot w₁.1 w₁.2
    rw [show handshake env.ledgered opts rack slot (w₁.1, w₁.2) = _ from done] at hshake
    obtain ⟨w₂, l₂⟩ := w₂
    dsimp only at hshake
    cases hshake with
    | undialed bad => exact absurd rfl (bad _)
    | closed bad => exact absurd rfl (bad _)
    | done number =>
      have hswap := swapped_holds env hl w₂
      rw [← number] at hswap
      exact hswap

/-- The requests of a client use its connection and no other. -/
theorem ledgered_steady (env : Env γ σ) {l : Ledger} {conn : Option (Nat × γ)} (h : l.Holds (conn.map Prod.fst)) :
    (env.ledgered.net conn).Steady False fun st => st.2.2 = l ∧ st.1.connected = conn.isSome := by
  have huse (c : Client) (st : σ × Ledger) (n : Nat) (hn : n ∈ conn.map Prod.fst)
      (hst : st.2 = l ∧ c.connected = conn.isSome) : st.2.use n = l ∧ c.connected = conn.isSome := by
    rw [hst.1, Ledger.use_of_mem (by rw [h.live]; simpa using hn)]
    exact ⟨rfl, hst.2⟩
  refine ⟨fun _ _ h => h, fun _ _ h => h, fun req c st hst => ?_, fun c st hst => ?_, fun _ _ _ h => h, fun h => h.elim⟩
  · rcases conn with _ | ⟨n, conn⟩
    · exact hst
    · exact huse c st n (by simp) hst
  · rcases conn with _ | ⟨n, conn⟩
    · exact hst
    · exact huse c st n (by simp) hst

theorem call_accounted (call : ClientCall) {st : ClientSession (Nat × γ) × (σ × Ledger)} (h : Accounted st) :
    Accounted (onClient env.ledgered opts call.perform st).2 := by
  obtain ⟨s, w, l⟩ := st
  have hkeeps := (perform_calm (ledgered_steady env h) call (s.client opts, (w, l)) ⟨rfl, rfl⟩).1
  unfold onClient
  dsimp only
  rcases hrun : call.perform (env.ledgered.net s.conn) (s.client opts, (w, l)) with ⟨r, c, w', l'⟩
  rw [hrun] at hkeeps
  obtain ⟨rfl, hconn⟩ : l' = l ∧ c.connected = s.conn.isSome := hkeeps
  have hsame : (if c.connected then s.conn else none) = s.conn := by
    rw [hconn]
    cases s.conn <;> rfl
  show l'.Holds ((if c.connected then s.conn else none).map Prod.fst)
  rw [hsame]
  exact h

theorem act_accounted (action : ClientAction) {st : ClientSession (Nat × γ) × (σ × Ledger)} (h : Accounted st) :
    Accounted (action.act env.ledgered opts st) := by
  cases action with
  | connect => exact connect_accounted h
  | close => exact closeSession_accounted h
  | call call => exact call_accounted call h

/-- The connections of a client over any sequence of connects, closes and calls, against any network, with every
    operation succeeding or failing as it may: the connection of the session is the only one that is open, and no
    connection was used or closed when it was not open. -/
theorem connections_accounted (env : Env γ σ) (opts : Options) (actions : List ClientAction) (w : σ) :
    Accounted (actions.foldl (fun st action => action.act env.ledgered opts st) ({}, (w, {}))) := by
  have hstart : Accounted (({}, (w, {})) : ClientSession (Nat × γ) × (σ × Ledger)) := ⟨rfl, rfl, by simp⟩
  generalize (({}, (w, {})) : ClientSession (Nat × γ) × (σ × Ledger)) = st at hstart
  induction actions generalizing st with
  | nil => exact hstart
  | cons action actions ih => exact ih _ (act_accounted action hstart)

end Actions

/-! ### Probes -/

section Probes
variable {τ γ σ : Type}

section Conn
variable {env : Env γ σ} {conn : γ} {P : σ → Prop} (hwrite : ∀ req w, P w → P (env.writeTSDU conn req w).2)
  (hread : ∀ w, P w → P (env.readTSDU conn w).2)
include hwrite hread

theorem trySZL_keeps (ref szlID : UInt16) : Eff.Calm False P (trySZL env conn ref szlID) := by
  refine (worldErr_calm (hwrite _)).handle (fun _ => Eff.calm_pure _) fun _ => ?_
  exact (worldVal_calm hread).handle (fun _ => Eff.calm_pure _) fun _ => Eff.keeps_lift _

theorem runFollowUp_keeps (ref : UInt16) (strategy : ConfirmationKind) :
    Eff.Calm False P (runFollowUp env conn ref strategy) := by
  have hquery := trySZL_keeps hwrite hread ref
  unfold runFollowUp
  split
  · refine (hquery szlModuleID).bind ?_
    rintro ⟨ok, errMsg⟩
    exact .ite (fun _ => Eff.calm_pure _) fun _ => Eff.calm_pure _
  · refine (hquery szlCPUState).bind ?_
    rintro ⟨ok, errMsg⟩
    exact .ite (fun _ => Eff.calm_pure _) fun _ => Eff.calm_pure _
  · refine (hquery szlModuleID).bind ?_
    rintro ⟨ok, errMsg⟩
    refine .ite (fun _ => Eff.calm_pure _) fun _ => (hquery szlCPUState).bind ?_
    rintro ⟨ok, errMsg⟩
    refine .ite (fun _ => Eff.calm_pure _) fun _ => (hquery szlProtectionInfo).bind ?_
    rintro ⟨ok, errMsg⟩
    exact .ite (fun _ => Eff.calm_pure _) fun _ => Eff.calm_pure _
  · exact Eff.calm_pure _
  · exact Eff.calm_pure _

end Conn

/-- A probe uses only the connection that it has made. -/
theorem probeConn_ledger (env : ProbeEnv τ γ σ) (req : RackSlotProbeRequest) {l : Ledger} {n : Nat} (hn : n ∈ l.live)
    (conn : γ) (c : RackSlotCandidate) :
    Eff.Calm False (fun st => st.2 = l) (probeConn env.ledgered req (n, conn) c) := by
  have huse (st : σ × Ledger) (h : st.2 = l) : st.2.use n = l := by rw [h, Ledger.use_of_mem hn]
  refine (performS7Setup_calm env.ledgered.client (n, conn) (fun _ h => h) (fun _ => huse) huse _ _ _ _).handle
    (fun err => Eff.calm_pure _) fun setup => .ite (fun _ => Eff.calm_pure _) fun _ => ?_
  refine (runFollowUp_keeps (fun _ => huse) huse 2 req.confirm).bind ?_
  rintro ⟨ok, confirmedBy, errStr⟩
  exact .ite (fun _ => Eff.calm_pure _) fun _ => Eff.calm_pure _

theorem probeDial_holds (env : ProbeEnv τ γ σ) (req : RackSlotProbeRequest) (held : Option Nat) (c : RackSlotCandidate) :
    Eff.Calm False (fun st => st.2.Holds held) (probeDial env.ledgered req c) := by
  refine (worldVal_calm fun st h => ?_).handle (fun err => Eff.calm_pure _) fun raw => ?_
  · dsimp only [ProbeEnv.dialTCP, ProbeEnv.ledgered]
    rcases (env.dialContext st.1).1 with err | raw <;> exact h
  rintro ⟨w, l⟩ hl
  refine ⟨?_, fun h => h.elim⟩
  rcases hcotp : env.connectCOTP raw c.localTSAP c.remoteTSAP w with ⟨err | conn, w₁⟩
  · have hfail : env.ledgered.connectCOTP raw c.localTSAP c.remoteTSAP (w, l) = (.error err, (w₁, l)) := by
      simp only [ProbeEnv.ledgered, hcotp]
    dsimp only
    rw [Eff.bind_ok (Eff.attempt_fail (worldVal_fail hfail))]
    exact hl
  · have hok : env.ledgered.connectCOTP raw c.localTSAP c.remoteTSAP (w, l) = (.ok (l.dialed, conn), (w₁, l.dial)) := by
      simp only [ProbeEnv.ledgered, hcotp]
    have hkeeps := (probeConn_ledger env req l.mem_dial conn c (w₁, l.dial) rfl).1
    dsimp only
    rw [Eff.bind_ok (Eff.attempt_ok (worldVal_ok hok))]
    -- The deferred close comes after whatever the probe has ended with.
    show ((probeConn env.ledgered req (l.dialed, conn) c (w₁, l.dial)).2.2.close l.dialed).Holds held
    rw [show (probeConn env.ledgered req (l.dialed, conn) c (w₁, l.dial)).2.2 = l.dial from hkeeps, Ledger.close_dial]
    exact hl.tried

theorem probeOne_holds (env : ProbeEnv τ γ σ) (req : RackSlotProbeRequest) (held : Option Nat) (rack slot : Int) :
    Eff.Calm False (fun st => st.2.Holds held) (probeOne env.ledgered req rack slot) := by
  refine (Eff.keeps_lift _).handle (fun err => Eff.calm_pure _) ?_
  rintro ⟨localTSAP, remoteTSAP⟩
  exact probeDial_holds env req held _

theorem closeSession_conn {env : Env γ σ} (st : ClientSession γ × σ) : (closeSession env st).2.1.conn = none := by
  obtain ⟨s, w⟩ := st
  unfold closeSession
  dsimp only
  rcases hconn : s.conn with _ | conn
  · exact hconn
  · dsimp only
    split <;> rfl

/-- A client that connects and is closed again leaves no connection, and so does one that does not get to connect. -/
theorem attemptConnect_holds (env : Env γ σ) (opts : DiscoverOpts) (port : Int) (rack slot : Int64) :
    Eff.Calm True (fun st => st.2.Holds none) (attemptConnect env.ledgered opts port rack slot) := by
  intro world hl
  unfold attemptConnect
  dsimp only
  generalize ({ port, rack := rack.toInt, slot := slot.toInt, timeout := (opts.timeout * 1000000).toInt } : Options) = o
  have haccount : Accounted (connect env.ledgered o ({}, world)).2 := connect_accounted hl
  have hends : ConnectEnds env.ledgered o {} world (connect env.ledgered o ({}, world)) := connect_ends {} world
  have hcalm := (connect_calm env.ledgered o ({}, world) trivial).2 trivial
  rcases hrun : connect env.ledgered o ({}, world) with ⟨h | err | _, s, world'⟩ <;> rw [hrun] at haccount hends hcalm
  · have hclosed : Accounted (closeSession env.ledgered (s, world')).2 := closeSession_accounted haccount
    unfold Accounted at hclosed
    rw [closeSession_conn] at hclosed
    exact ⟨hclosed, by simp⟩
  · cases hends
    exact ⟨haccount, by simp⟩
  · exact absurd rfl hcalm

theorem beforeAttempt_holds (env : Env γ σ) (opts : DiscoverOpts) (held : Option Nat) :
    Eff.Calm True (fun st => st.2.Holds held) (beforeAttempt env.ledgered opts) := by
  have hctx : Eff.Calm True (fun st => st.2.Holds held) (worldErr env.ledgered.ctxErr) := worldErr_calm fun _ h => h
  have hwait : Eff.Calm True (fun st => st.2.Holds held) (worldErr env.ledgered.wait) := worldErr_calm fun _ h => h
  have hrate : Eff.Calm True (fun st => st.2.Holds held)
      (if opts.rateMS > 0 then worldErr env.ledgered.wait else pure ()) :=
    .ite (fun _ => hwait) fun _ => Eff.calm_pure _
  exact hctx.bind fun _ => .ite (fun _ => hwait.bind fun _ => hrate) fun _ => hrate

theorem probeFrom_holds (env : Env γ σ) (opts : DiscoverOpts) (result : DiscoverResult) {fuel : Nat}
    {rack slot attempts : Int64} {st st' : σ × Ledger} {out : DiscoverResult} (hst : st.2.Holds none)
    (h : probeFrom env.ledgered opts result fuel rack slot attempts st = some (out, st')) : st'.2.Holds none := by
  induction fuel generalizing rack slot attempts st with
  | zero => cases h
  | succ fuel ih =>
    unfold probeFrom at h
    split at h
    · cases h
      exact hst
    split at h
    · exact ih hst h
    split at h
    · cases h
      exact hst
    have hbefore := (beforeAttempt_holds env opts none st hst).1
    split at h
    · cases h
    · rename_i hrun
      rw [hrun] at hbefore
      cases h
      exact hbefore
    · rename_i st₁ hrun
      rw [hrun] at hbefore
      have hattempt := (attemptConnect_holds env opts result.port rack slot st₁ hbefore).1
      split at h
      · cases h
      · rename_i hconnect
        rw [hconnect] at hattempt
        exact ih hattempt h
      · rename_i hconnect
        rw [hconnect] at hattempt
        cases h
        exact hattempt

/-- A peer that takes connections and hangs up on every request. -/
def hangsUp : ProbeEnv Unit Unit Unit where
  ctxErr w := (none, w)
  wait w := (none, w)
  dialContext w := (.ok (), w)
  connectCOTP _ _ _ w := (.ok (), w)
  writeTSDU _ _ w := (none, w)
  readTSDU _ w := (.error (.text "EOF"), w)
  close _ w := (none, w)

/-- One slot of one rack. -/
def singleSlot : DiscoverOpts := { rackMax := 0, slotMax := 0 }

/-- What is said of a host that hangs up. -/
def hungUp : DiscoverResult :=
  { ip := "10.0.0.1", port := 102, error := "no valid COTP+S7 setup for tested rack/slot range" }

end Probes
end S7Comm
