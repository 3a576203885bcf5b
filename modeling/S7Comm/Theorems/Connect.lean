import S7Comm.Client.Connect
import S7Comm.Theorems.SendReceive

/-! The session of a client over whole runs: it is empty, or it is that of one handshake. A handshake does not touch
    the client; only its result is swapped in, all at once. -/

namespace S7Comm
open Go

section Session
variable {γ σ : Type} {env : Env γ σ} {opts : Options}

/-- The session after a handshake was swapped in. -/
def ClientSession.swapped (s : ClientSession γ) (h : Handshake γ) : ClientSession γ := { s with
  conn := some h.conn, rack := h.rack, slot := h.slot, localTSAP := h.localTSAP, remoteTSAP := h.remoteTSAP,
  pduSize := h.setup.pduSize, maxAmqCalling := h.setup.maxAmqCalling, maxAmqCalled := h.setup.maxAmqCalled }

/-- From `w` on, contexts were looked at and handshakes were made, and none of them succeeded. -/
inductive NoHandshake (env : Env γ σ) (opts : Options) (w : σ) : σ → Prop where
  | none : NoHandshake env opts w w
  | checked {w₁ w₂ : σ} {r : Option GoError} (before : NoHandshake env opts w w₁) (check : env.ctxErr w₁ = (r, w₂)) :
    NoHandshake env opts w w₂
  | failed {w₁ w₂ : σ} {rack slot : Int} {r : Outcome GoError (Handshake γ)} (before : NoHandshake env opts w w₁)
    (shake : handshake env opts rack slot w₁ = (r, w₂)) (bad : ∀ h, r ≠ .ok h) : NoHandshake env opts w w₂

/-- How a connecting call ends: with the first handshake that succeeded, swapped in as the last thing the call does but
    closing the old connection; or without one, and then the session is as it was. -/
inductive ConnectEnds (env : Env γ σ) (opts : Options) (s : ClientSession γ) (w : σ) :
    Outcome GoError (Handshake γ) × ClientSession γ × σ → Prop where
  | swapped {rack slot : Int} {w₁ w₂ : σ} {h : Handshake γ} (before : NoHandshake env opts w w₁)
    (done : handshake env opts rack slot w₁ = (.ok h, w₂)) :
    ConnectEnds env opts s w (.ok h, (s.swapped h, (env.closeCOTP s.conn w₂).2))
  | failed (err : GoError) {w' : σ} (before : NoHandshake env opts w w') : ConnectEnds env opts s w (.fail err, (s, w'))
  | crashed {w' : σ} (before : NoHandshake env opts w w') : ConnectEnds env opts s w (.panic, (s, w'))

theorem connectOnce_ends {w₀ w : σ} (h₀ : NoHandshake env opts w₀ w) (rack slot : Int) (s : ClientSession γ) :
    ConnectEnds env opts s w₀ (connectOnce env opts rack slot (s, w)) := by
  unfold connectOnce
  rcases hshake : handshake env opts rack slot w with ⟨h | err | _, w₁⟩
  · rw [Eff.bind_ok (Eff.onSnd_apply hshake s)]
    exact .swapped h₀ hshake
  · rw [Eff.bind_fail (Eff.onSnd_apply hshake s)]
    exact .failed err (h₀.failed hshake nofun)
  · rw [Eff.bind_panic (Eff.onSnd_apply hshake s)]
    exact .crashed (h₀.failed hshake nofun)

theorem tryRackSlots_ends (failure : String) (pairs : List (Int × Int)) (s : ClientSession γ) {w₀ w : σ}
    (h₀ : NoHandshake env opts w₀ w) : ConnectEnds env opts s w₀ (tryRackSlots env opts failure pairs (s, w)) := by
  induction pairs generalizing w with
  | nil => exact .failed _ h₀
  | cons pair rest ih =>
    obtain ⟨rack, slot⟩ := pair
    unfold tryRackSlots
    rcases hctx : env.ctxErr w with ⟨_ | err, w₁⟩
    · rw [Eff.bind_ok (Eff.onSnd_apply (worldErr_ok hctx) s)]
      have honce : ConnectEnds env opts s w₀ (connectOnce env opts rack slot (s, w₁)) :=
        connectOnce_ends (h₀.checked hctx) rack slot s
      rcases hrun : connectOnce env opts rack slot (s, w₁) with ⟨r, st⟩
      rw [hrun] at honce
      cases honce with
      | swapped before done =>
        rw [Eff.bind_ok (Eff.attempt_ok hrun)]
        exact .swapped before done
      | failed err before =>
        rw [Eff.bind_ok (Eff.attempt_fail hrun)]
        exact ih before
      | crashed before =>
        rw [Eff.bind_panic (Eff.attempt_panic hrun)]
        exact .crashed before
    · rw [Eff.bind_fail (Eff.onSnd_apply (worldErr_fail hctx) s)]
      exact .failed err (h₀.checked hctx)

theorem connect_ends (s : ClientSession γ) (w : σ) : ConnectEnds env opts s w (connect env opts (s, w)) := by
  unfold connect
  rcases hvalid : opts.validate with _ | err | _
  · rw [Eff.bind_ok (Eff.lift_apply _ _)]
    split
    · unfold autoConnect
      split
      · exact tryRackSlots_ends _ _ s .none
      · exact tryRackSlots_ends _ _ s .none
    · exact connectOnce_ends .none _ _ s
  · exact .failed err .none
  · exact .crashed .none

/-! ### Runs -/

/-- The session is that of the handshake, or empty without one. -/
def Matches : Option (Handshake γ) → ClientSession γ → Prop
  | none, s => s.conn = none ∧ s.connectionInfo = {}
  | some h, s => s.conn = some h.conn ∧
      s.connectionInfo = ⟨h.localTSAP, h.remoteTSAP, h.rack, h.slot, h.setup.pduSize, h.setup.maxAmqCalling,
        h.setup.maxAmqCalled⟩

theorem matches_pduRef {latest : Option (Handshake γ)} {s : ClientSession γ} (h : Matches latest s) (pduRef : UInt32) :
    Matches latest { s with pduRef } := by
  cases latest <;> exact h

theorem closeSession_cleared {latest : Option (Handshake γ)} {s s' : ClientSession γ} (hs : Matches latest s) {w w' : σ}
    {r : Outcome GoError Unit} (h : closeSession env (s, w) = (r, (s', w'))) : Matches none s' := by
  unfold closeSession at h
  dsimp only at h
  cases hconn : s.conn with
  | none =>
    rw [hconn] at h
    cases h
    cases latest with
    | none => exact hs
    | some shake =>
      rw [hs.1] at hconn
      cases hconn
  | some conn =>
    rw [hconn] at h
    dsimp only at h
    split at h
    · cases h
      exact ⟨rfl, rfl⟩
    · cases h
      exact ⟨rfl, rfl⟩

/-- A request that leaves the view of the client alone but for its counter keeps the session. -/
theorem onClient_session {α : Type} {x : Net σ → ClientM σ α} {s s' : ClientSession γ} {w w' : σ} {r : Outcome GoError α}
    (hx : ∀ net c w, (x net (c, w)).2.1.connected = c.connected ∧ (x net (c, w)).2.1.pduSize = c.pduSize)
    (h : onClient env opts x (s, w) = (r, (s', w'))) : ∃ pduRef, s' = { s with pduRef } := by
  obtain ⟨hconn, hsize⟩ := hx (env.net s.conn) (s.client opts) w
  unfold onClient at h
  dsimp only at h
  rcases hrun : x (env.net s.conn) (s.client opts, w) with ⟨r', c', w₁⟩
  rw [hrun] at h hconn hsize
  cases h
  refine ⟨c'.pduRef, ?_⟩
  dsimp only at hconn hsize
  rw [hconn, hsize]
  cases hc : s.conn <;> simp [ClientSession.client, hc]

theorem nextPDURef_client (c : Client) (w : σ) :
    (nextPDURef (c, w) : Outcome GoError UInt16 × Client × σ).2.1.connected = c.connected ∧
      (nextPDURef (c, w) : Outcome GoError UInt16 × Client × σ).2.1.pduSize = c.pduSize := ⟨rfl, rfl⟩

theorem sendReceive_client (net : Net σ) (req : Bytes) (ref : UInt16) (c : Client) (w : σ) :
    (sendReceive net req ref (c, w)).2.1 = c :=
  sendReceive_preserves (P := fun p => p.1 = c) (fun _ _ h => h) (fun _ _ h => h) (fun _ _ h => h) ref (c, w) rfl

/-- One call keeps the session in step with the most recent handshake. -/
theorem step_matches {s : SessionHistory γ σ} (hs : Matches s.latest s.session) (op : SessionOp) :
    Matches (s.step env opts op).latest (s.step env opts op).session := by
  cases op with
  | connect =>
    have hends : ConnectEnds env opts s.session s.world (connect env opts (s.session, s.world)) :=
      connect_ends s.session s.world
    unfold SessionHistory.step
    rcases hrun : connect env opts (s.session, s.world) with ⟨r, session, world⟩
    rw [hrun] at hends
    cases hends with
    | swapped before done => exact ⟨rfl, rfl⟩
    | failed err before => exact hs
    | crashed before => exact hs
  | close =>
    unfold SessionHistory.step
    rcases hrun : closeSession env (s.session, s.world) with ⟨r, session, world⟩
    exact closeSession_cleared hs hrun
  | nextRef =>
    unfold SessionHistory.step
    rcases hrun : onClient env opts (fun _ => nextPDURef) (s.session, s.world) with ⟨r, session, world⟩
    obtain ⟨pduRef, rfl⟩ := onClient_session (fun _ c w => nextPDURef_client c w) hrun
    exact matches_pduRef hs pduRef
  | exchange req ref =>
    unfold SessionHistory.step
    rcases hrun : onClient env opts (fun net => sendReceive net req ref) (s.session, s.world) with ⟨r, session, world⟩
    obtain ⟨pduRef, rfl⟩ := onClient_session (fun net c w => by rw [sendReceive_client]; exact ⟨rfl, rfl⟩) hrun
    dsimp only
    rw [hrun]
    exact matches_pduRef hs pduRef

theorem sessionRun_matches (ops : List SessionOp) (w : σ) :
    Matches (sessionRun env opts ops w).latest (sessionRun env opts ops w).session := by
  unfold sessionRun
  generalize hs : (⟨none, {}, w⟩ : SessionHistory γ σ) = s
  have hmatch : Matches s.latest s.session := by
    rw [← hs]
    exact ⟨rfl, rfl⟩
  clear hs
  induction ops generalizing s with
  | nil => exact hmatch
  | cons op ops ih => exact ih _ (step_matches hmatch op)

end Session

/-- The session of a client over any sequence of calls, with every dial, handshake and exchange succeeding or failing
    as it may. The session is empty or, in all its fields, that of the most recent successful handshake since the
    last Close. A Connect that returns an error has made no successful handshake and leaves the session as it was;
    one that returns nil has swapped in its only successful handshake. Close leaves an empty session, whatever
    closing the connection returns. -/
theorem client_session_machine {γ σ : Type} (env : Env γ σ) (opts : Options) :
    (∀ ops w, Matches (sessionRun env opts ops w).latest (sessionRun env opts ops w).session) ∧
    (∀ s w err s' w', connect env opts (s, w) = (.fail err, (s', w')) → s' = s ∧ NoHandshake env opts w w') ∧
    (∀ s w h s' w', connect env opts (s, w) = (.ok h, (s', w')) → ∃ rack slot w₁ w₂, NoHandshake env opts w w₁ ∧
      handshake env opts rack slot w₁ = (.ok h, w₂) ∧ s' = s.swapped h ∧ w' = (env.closeCOTP s.conn w₂).2) ∧
    ∀ ops w r s' w', closeSession env ((sessionRun env opts ops w).session, (sessionRun env opts ops w).world) =
      (r, (s', w')) → s'.conn = none ∧ s'.connectionInfo = {} := by
  refine ⟨sessionRun_matches, ?_, ?_, ?_⟩
  · intro s w err s' w' h
    have hends : ConnectEnds env opts s w (connect env opts (s, w)) := connect_ends s w
    rw [h] at hends
    cases hends with
    | failed _ before => exact ⟨rfl, before⟩
  · intro s w h s' w' hrun
    have hends : ConnectEnds env opts s w (connect env opts (s, w)) := connect_ends s w
    rw [hrun] at hends
    cases hends with
    | swapped before done => exact ⟨_, _, _, _, before, done, rfl, rfl⟩
  · intro ops w r s' w' h
    exact closeSession_cleared (sessionRun_matches ops w) h

/-- A peer that takes two connections and refuses the next; closing a connection fails. -/
def twoConnections : Env Nat Nat where
  ctxErr w := (none, w)
  wait w := (none, w)
  dialCOTP _ _ n := if n < 2 then (.ok n, n + 1) else (.error (.net false "connection refused"), n + 1)
  writeTSDU _ _ w := (none, w)
  readTSDU _ w := (.ok ([0x32, rosctrAckData, 0, 0, 0, 1, 0, 8, 0, 0, 0, 0] ++ [funcSetupComm, 0, 0, 1, 0, 2, 0, 240]), w)
  close _ w := (some (.net false "close failed"), w)

/-- The session of the second connection, with the default options. -/
def secondSession : ClientSession Nat :=
  { conn := some 1, rack := 0, slot := 1, localTSAP := 0x0100, remoteTSAP := 0x0301, pduSize := 240, maxAmqCalling := 1,
    maxAmqCalled := 2 }

/-- The session of the second connection outlives a Connect that fails, and Close clears it though closing fails. -/
theorem client_session_machine_refused :
    Matches (some ⟨1, 0, 1, 0x0100, 0x0301, ⟨1, 2, 240⟩⟩) secondSession ∧ NoHandshake twoConnections {} 2 3 ∧
      (∃ rack slot w₁ w₂, handshake twoConnections {} rack slot w₁ = (.ok ⟨1, 0, 1, 0x0100, 0x0301, ⟨1, 2, 240⟩⟩, w₂)) ∧
      ∃ s', closeSession twoConnections (secondSession, 2) = (.fail (.net false "close failed"), (s', 2)) ∧
        s'.conn = none ∧ s'.connectionInfo = {} := by
  obtain ⟨hrun, hfail, hok, hclose⟩ := client_session_machine twoConnections {}
  have hstate : (sessionRun twoConnections {} [.connect, .connect] 0).latest = some ⟨1, 0, 1, 0x0100, 0x0301, ⟨1, 2, 240⟩⟩ ∧
      (sessionRun twoConnections {} [.connect, .connect] 0).session = secondSession ∧
      (sessionRun twoConnections {} [.connect, .connect] 0).world = 2 := by decide +kernel
  have hsecond : connect twoConnections {} ({}, 1) = (.ok ⟨1, 0, 1, 0x0100, 0x0301, ⟨1, 2, 240⟩⟩, (secondSession, 2)) := by
    decide +kernel
  have hrefused : connect twoConnections {} (secondSession, 2) =
      (.fail (.net false "connection refused"), (secondSession, 3)) := by decide +kernel
  have hclosed : closeSession twoConnections (secondSession, 2) = (.fail (.net false "close failed"), ({}, 2)) := by
    decide +kernel
  have hmatch := hrun [.connect, .connect] 0
  have hcleared := hclose [.connect, .connect] 0
  rw [hstate.1, hstate.2.1] at hmatch
  rw [hstate.2.1, hstate.2.2] at hcleared
  obtain ⟨rack, slot, w₁, w₂, -, hshake, -⟩ := hok _ _ _ _ _ hsecond
  exact ⟨hmatch, (hfail _ _ _ _ _ hrefused).2, ⟨rack, slot, w₁, w₂, hshake⟩, {}, hclosed, hcleared _ _ _ hclosed⟩

end S7Comm
