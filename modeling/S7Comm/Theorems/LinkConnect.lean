import S7Comm.System.Conversation
import S7Comm.Theorems.LinkBase
import S7Comm.Theorems.Negotiation

/-! Connecting to the server. With options that pass the checks the handshake succeeds at the first rack and slot that
    is tried, and client and session then have the same PDU size: the smaller one of what they can take. -/

namespace S7Comm
open Go

/-- Options that `Connect` takes, with numbers of jobs that a setup request can hold. -/
structure Options.Usable (opts : Options) : Prop where
  valid : opts.validate = .ok ()
  calling : 0 ≤ opts.maxAmqCalling ∧ opts.maxAmqCalling ≤ 65535
  called : 0 ≤ opts.maxAmqCalled ∧ opts.maxAmqCalled ≤ 65535

/-- The PDU size that client and server agree on. -/
def agreedPDU (cfg : ServerConfig) (opts : Options) : Nat := min opts.maxPDU.toNat cfg.maxPDUSize

section Setup
variable {cfg : ServerConfig} {opts : Options} {calling called size : Nat} {ref : UInt16}

theorem encodeSetupCommRequest_eq (ref : UInt16) (h₁ : calling ≤ 65535) (h₂ : called ≤ 65535) (h₃ : size ≤ 65535) :
    encodeSetupCommRequest ref calling called size = .ok (message rosctrJob ref (setupParam calling called size) []) := by
  unfold encodeSetupCommRequest
  rw [checkedUint16_natCast h₁, checkedUint16_natCast h₂, checkedUint16_natCast h₃]
  exact encodeMessage_eq (by simp) (by simp)

theorem parseSetupCommRequest_setupParam (h₁ : calling ≤ 65535) (h₂ : called ≤ 65535) (h₃ : size ≤ 65535) :
    parseSetupCommRequest (setupParam calling called size) = .ok ⟨calling, called, size⟩ := by
  have hfields (x y z : UInt16) :
      parseSetupCommRequest ([funcSetupComm, 0] ++ putUint16 x ++ putUint16 y ++ putUint16 z) =
        .ok ⟨x.toNat, y.toNat, z.toNat⟩ := by
    simp [parseSetupCommRequest, putUint16]
  rw [setupParam, hfields, uint16_toNat_ofNat (by omega), uint16_toNat_ofNat (by omega), uint16_toNat_ofNat (by omega)]

/-- The server grants a setup request. -/
theorem handle_setupParam (s : Session) (h₁ : calling ≤ 65535) (h₂ : called ≤ 65535) (h₃ : size ≤ 65535) :
    ∃ a b, a ≤ 65535 ∧ b ≤ 65535 ∧ handle cfg (message rosctrJob ref (setupParam calling called size) []) s =
      (.ok (some (ackData ref 0 0 (setupParam a b (min size cfg.maxPDUSize)) []), true),
        { s with pduSize := min size cfg.maxPDUSize }) := by
  have hgrant (n : Nat) : max 1 (min n maxAmQ) ≤ 65535 := by
    have : maxAmQ = 2 := rfl
    omega
  have hfn : (setupParam calling called size)[0]? = some funcSetupComm := rfl
  have hlen : (setupParam calling called size).length ≤ 65535 := by simp [setupParam]
  have hsetup := setup_eq cfg ref s (parseSetupCommRequest_setupParam h₁ h₂ h₃)
  have hhandle : handle cfg (message rosctrJob ref (setupParam calling called size) []) s =
      answerJob ref (setupParam calling called size) (setup cfg ref (setupParam calling called size)) s := by
    rw [handle_message hlen (Nat.zero_le _), dispatch_setup hfn]
  exact ⟨_, _, hgrant calling, hgrant called, hhandle.trans (answerJob_ok hsetup)⟩

/-- The limits of the options, as a setup request holds them. -/
theorem Options.Usable.limits (h : opts.Usable) : ∃ calling called size : Nat, opts.maxAmqCalling = calling ∧
    opts.maxAmqCalled = called ∧ opts.maxPDU = size ∧ calling ≤ 65535 ∧ called ≤ 65535 ∧ size ≤ 65535 := by
  obtain ⟨calling, hcalling⟩ := Int.eq_ofNat_of_zero_le h.calling.1
  obtain ⟨called, hcalled⟩ := Int.eq_ofNat_of_zero_le h.called.1
  have hvalid := h.valid
  unfold Options.validate at hvalid
  split_ifs at hvalid with h₁ h₂ h₃ h₄ h₅
  all_goals
    obtain ⟨size, hsize⟩ := Int.eq_ofNat_of_zero_le (show 0 ≤ opts.maxPDU by omega)
    have := h.calling.2
    have := h.called.2
    exact ⟨calling, called, size, hcalling, hcalled, hsize, by omega, by omega, by omega⟩

/-- The setup on a new connection. -/
theorem performS7Setup_link (hopts : opts.Usable) {w : Link} (hw : Idle w) :
    ∃ setup w', performS7Setup (linkEnv cfg) () 1 opts.maxAmqCalling opts.maxAmqCalled opts.maxPDU w = (.ok setup, w') ∧
      setup.pduSize = agreedPDU cfg opts ∧ Idle w' ∧ w'.session = ⟨w.session.mem, agreedPDU cfg opts⟩ := by
  obtain ⟨calling, called, size, hcalling, hcalled, hsize, h₁, h₂, h₃⟩ := hopts.limits
  obtain ⟨session, kept, inbox, requests, answers⟩ := w
  obtain ⟨rfl, rfl⟩ := hw
  obtain ⟨a, b, ha, hb, hserve⟩ := handle_setupParam session h₁ h₂ h₃
  have hagreed : agreedPDU cfg opts = min size cfg.maxPDUSize := by
    unfold agreedPDU
    rw [hsize, Int.toNat_natCast]
  have hsetup := setupAnswer_ackData 1 ha hb (show min size cfg.maxPDUSize ≤ 65535 by omega)
  obtain ⟨out, hout⟩ : ∃ out, ackData 1 0 0 (setupParam a b (min size cfg.maxPDUSize)) [] = out := ⟨_, rfl⟩
  obtain ⟨req, hreq⟩ : ∃ req, message rosctrJob 1 (setupParam calling called size) [] = req := ⟨_, rfl⟩
  rw [hout, hreq] at hserve
  rw [hout] at hsetup
  have hwrite : (linkEnv cfg).writeTSDU () req ⟨session, true, [], requests, answers⟩ =
      (none, ⟨{ session with pduSize := min size cfg.maxPDUSize }, true, [out], requests ++ [req], answers ++ [out]⟩) := by
    simp only [linkEnv, serverNet, Link.serve, ↓reduceIte, hserve]
    rfl
  refine ⟨⟨a, b, min size cfg.maxPDUSize⟩, ⟨{ session with pduSize := min size cfg.maxPDUSize }, true, [], requests ++ [req], answers ++ [out]⟩, ?_,
    hagreed.symm, ⟨rfl, rfl⟩, by rw [hagreed]⟩
  have hctx (w : Link) : (linkEnv cfg).ctxErr w = (none, w) := rfl
  have hread (s : Session) : (linkEnv cfg).readTSDU () ⟨s, true, [out], requests ++ [req], answers ++ [out]⟩ =
      (.ok out, ⟨s, true, [], requests ++ [req], answers ++ [out]⟩) := rfl
  unfold performS7Setup
  rw [Eff.bind_ok (worldErr_ok (hctx _)), hcalling, hcalled, hsize, encodeSetupCommRequest_eq 1 h₁ h₂ h₃, hreq, asValidation_ok,
    Eff.bind_ok (Eff.lift_apply _ _), Eff.bind_ok (worldErr_ok hwrite), Eff.bind_ok (worldVal_ok (hread _)), hsetup]
  rfl

theorem handshake_link (hopts : opts.Usable) {rack slot : Int}
    (htsaps : ∃ tsaps, connectionTSAPs opts rack slot = .ok tsaps) (w : Link) :
    ∃ h w', handshake (linkEnv cfg) opts rack slot w = (.ok h, w') ∧ h.setup.pduSize = agreedPDU cfg opts ∧ Idle w' ∧
      w'.session = ⟨w.session.mem, agreedPDU cfg opts⟩ := by
  obtain ⟨⟨l, r⟩, htsaps⟩ := htsaps
  obtain ⟨setup, w', hsetup, hsize, hidle, hsession⟩ := performS7Setup_link hopts
    (w := { session := ⟨w.session.mem, cfg.maxPDUSize⟩ }) ⟨rfl, rfl⟩
  refine ⟨⟨(), rack, slot, l, r, setup⟩, w', ?_, hsize, hidle, hsession⟩
  have hdial : (linkEnv cfg).dialCOTP l r w = (.ok (), { session := ⟨w.session.mem, cfg.maxPDUSize⟩ }) := rfl
  unfold handshake
  rw [htsaps, Eff.bind_ok (Eff.lift_apply _ _)]
  dsimp only
  rw [Eff.bind_ok (worldVal_ok hdial), Eff.bind_ok (Eff.attempt_ok hsetup)]
  rfl

end Setup

/-! ### Connect and close -/

section Connect
variable {cfg : ServerConfig} {opts : Options}

/-- The session of a client that is connected or not, and the link, between two actions. -/
structure Between (opts : Options) (p : Nat) (mem : Memory) (on : Bool) (st : ClientSession Unit × Link) : Prop where
  conn : st.1.conn = if on then some () else none
  linked : on = true → Linked p (st.1.client opts) st.2
  mem_eq : st.2.session.mem = mem

theorem connectOnce_link (hopts : opts.Usable) {rack slot : Int}
    (htsaps : ∃ tsaps, connectionTSAPs opts rack slot = .ok tsaps) (s : ClientSession Unit) (w : Link) :
    ∃ h st', connectOnce (linkEnv cfg) opts rack slot (s, w) = (.ok h, st') ∧
      Between opts (agreedPDU cfg opts) w.session.mem true st' := by
  obtain ⟨h, w', hrun, hsize, hidle, hsession⟩ := handshake_link hopts htsaps w
  have hclose : ((linkEnv cfg).closeCOTP s.conn w').2 = w' := by cases s.conn <;> rfl
  obtain ⟨s', hswap, hconn, hpdu⟩ : ∃ s', swapIn (linkEnv cfg) h (s, w') = (.ok (), (s', w')) ∧ s'.conn = some () ∧
      s'.pduSize = h.setup.pduSize := by
    unfold swapIn
    dsimp only
    rw [hclose]
    exact ⟨_, rfl, rfl, rfl⟩
  refine ⟨h, (s', w'), ?_, hconn, fun _ => ⟨?_, hpdu.trans hsize, by rw [hsession], hidle⟩, by rw [hsession]⟩
  · unfold connectOnce
    rw [Eff.bind_ok (Eff.onSnd_apply hrun s), Eff.bind_ok hswap]
    rfl
  · unfold ClientSession.client
    rw [hconn]
    rfl

theorem connectionTSAPs_ok {rack slot : Int} (h : validateRackSlot rack slot = .ok ()) :
    ∃ tsaps, connectionTSAPs opts rack slot = .ok tsaps := by
  have hremote : ∃ tsap, buildTSAP 3 rack slot = .ok tsap := by
    rw [buildTSAP, h]
    exact ⟨_, rfl⟩
  obtain ⟨tsap, hremote⟩ := hremote
  unfold connectionTSAPs
  split
  · exact ⟨_, rfl⟩
  · rw [hremote]
    exact ⟨_, rfl⟩

/-- The first pair that can be tried is taken. -/
theorem tryRackSlots_link (hopts : opts.Usable) (failure : String) {rack slot : Int} (rest : List (Int × Int))
    (hpair : validateRackSlot rack slot = .ok ()) (s : ClientSession Unit) (w : Link) :
    ∃ h st', tryRackSlots (linkEnv cfg) opts failure ((rack, slot) :: rest) (s, w) = (.ok h, st') ∧
      Between opts (agreedPDU cfg opts) w.session.mem true st' := by
  obtain ⟨h, st', hrun, hst'⟩ := connectOnce_link hopts (connectionTSAPs_ok hpair) s w
  refine ⟨h, st', ?_, hst'⟩
  have hctx : worldErr (linkEnv cfg).ctxErr w = (.ok (), w) := rfl
  unfold tryRackSlots
  rw [Eff.bind_ok (Eff.onSnd_apply hctx s), Eff.bind_ok (Eff.attempt_ok hrun)]
  rfl

theorem Options.validate_rackSlot (h : opts.validate = .ok ()) (hauto : opts.autoRackSlot = false) :
    validateRackSlot opts.rack opts.slot = .ok () := by
  unfold Options.validate at h
  simp only [hauto, Bool.false_eq_true, ↓reduceIte] at h
  split_ifs at h
  cases hrack : validateRackSlot opts.rack opts.slot with
  | ok a => rfl
  | fail e =>
    rw [hrack] at h
    cases h
  | panic =>
    rw [hrack] at h
    cases h

/-- Connecting succeeds, from any state of the session, and leaves the memory of the server as it is. -/
theorem connect_link (hopts : opts.Usable) (s : ClientSession Unit) (w : Link) :
    ∃ h st', connect (linkEnv cfg) opts (s, w) = (.ok h, st') ∧
      Between opts (agreedPDU cfg opts) w.session.mem true st' := by
  unfold connect
  rw [hopts.valid, Eff.bind_ok (Eff.lift_apply _ _)]
  split
  · unfold autoConnect
    split
    · exact tryRackSlots_link hopts _ _ rfl s w
    · exact tryRackSlots_link hopts _ _ rfl s w
  · rename_i hauto
    refine connectOnce_link hopts ?_ s w
    cases hexplicit : opts.useExplicit with
    | true =>
      unfold connectionTSAPs
      rw [hexplicit]
      exact ⟨_, rfl⟩
    | false =>
      refine connectionTSAPs_ok (Options.validate_rackSlot hopts.valid ?_)
      cases hrack : opts.autoRackSlot with
      | false => rfl
      | true => exact absurd ⟨hrack, by rw [hexplicit]; rfl⟩ hauto

theorem closeSession_link {p : Nat} {mem : Memory} {on : Bool} {st : ClientSession Unit × Link}
    (h : Between opts p mem on st) : Between opts p mem false (closeSession (linkEnv cfg) st).2 := by
  obtain ⟨s, w⟩ := st
  unfold closeSession
  dsimp only
  cases hconn : s.conn with
  | none => exact ⟨hconn, fun hon => (by cases hon), h.mem_eq⟩
  | some conn => exact ⟨rfl, fun hon => (by cases hon), h.mem_eq⟩

end Connect
end S7Comm
