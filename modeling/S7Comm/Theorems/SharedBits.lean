import S7Comm.Theorems.SharedWrite

/-! `WriteBit` on a shared server. The bit is set by the server, in one step, and not by the client in a read and a
    write of the byte around it; so what others write to the rest of the byte in between is not lost. -/

namespace S7Comm
open Go

section Bit
variable {cfg : ServerConfig} {id : Nat} {w : SharedLink id}

/-- The checks before a bit request on a shared server: they pass, or the call ends before it sends anything. -/
theorem bitGate_shared (hw : w.Ready) (c : Client) (addr : BitAddress) :
    bitGate (sharedNet cfg id) addr (c, w) = (.ok (), (c, w)) ∧ validateBitAddress addr = .ok () ∨
      (∃ e, bitGate (sharedNet cfg id) addr (c, w) = (.fail e, (c, w))) ∧
        ¬(validateBitAddress addr = .ok () ∧ c.connected = true ∧ w.Calm) := by
  have hctx : (sharedNet cfg id).ctxErr w = (w.turns.head?.bind Interlude.ctx, w) := by
    simp [sharedNet, hw.due]
  unfold bitGate
  obtain hvalid | ⟨e, hvalid⟩ := validateBitAddress_cases addr
  swap
  · exact .inr ⟨⟨e, by rw [hvalid, Eff.bind_fail (Eff.lift_apply _ _)]⟩, fun h => by simp [hvalid] at h⟩
  rw [hvalid, Eff.bind_ok (Eff.lift_apply _ _), Eff.bind_ok (Eff.get_apply _)]
  dsimp only
  by_cases hconn : c.connected = true
  · rw [if_neg (by simp [hconn])]
    cases herr : w.turns.head?.bind Interlude.ctx with
    | none =>
      rw [herr] at hctx
      exact .inl ⟨netErr_ok hctx, rfl⟩
    | some e =>
      rw [herr] at hctx
      refine .inr ⟨⟨e, netErr_fail hctx⟩, ?_⟩
      rintro ⟨-, -, t, turns, ht, hcalm⟩
      simp [ht, hcalm.ctx] at herr
  · rw [if_pos (by simpa using hconn)]
    exact .inr ⟨⟨_, rfl⟩, fun h => hconn h.2.1⟩

end Bit

/-- Setting a bit on a shared server over a transport that may fail. The call takes at most one step in the run of the
    server. The step gives the bit its value and leaves every other bit of every region as the others had left it, or
    it is refused and changes nothing; the call returns nil only when the bit is set. Without a fault the others
    cannot make it fail. -/
theorem write_bit_shared (cfg : ServerConfig) (id : Nat) (c : Client) (srv : Server) (turns : List (Interlude id))
    (addr : BitAddress) (v : Bool) :
    ∃ res c' w', writeBit (sharedNet cfg id) addr v (c, { server := srv, turns }) = (res, (c', w')) ∧
      w'.server = srv.run cfg w'.history ∧
      ((∃ e, res = .fail e) ∧ (∃ last : Option (Memory × Memory), ownSteps cfg id srv w'.history = last.toList ∧
          ∀ step ∈ last, step.2 = step.1 ∨
            SetsBit addr.byte.key addr.byteOffset.toNat addr.bitOffset.toNat v step) ∨
        res = .ok () ∧ ∃ step, ownSteps cfg id srv w'.history = [step] ∧
          SetsBit addr.byte.key addr.byteOffset.toNat addr.bitOffset.toNat v step) ∧
      (validateBitAddress addr = .ok () → c.connected = true → (c.pduSize = 0 ∨ 30 ≤ c.pduSize) →
        srv.mem.Takes addr.byte (addr.byteOffset.toNat + 1) → (∃ t rest, turns = t :: rest ∧ t.Calm) → res = .ok ()) := by
  obtain ⟨w, hw⟩ : ∃ w : SharedLink id, w = { server := srv, turns } := ⟨_, rfl⟩
  have hready : w.Ready := by
    rw [hw]
    exact ⟨rfl, rfl, rfl⟩
  rw [← hw]
  have hfinish {w' : SharedLink id} {steps : List (Memory × Memory)} (h : w.Extends cfg w' steps) :
      w'.server = srv.run cfg w'.history ∧ ownSteps cfg id srv w'.history = steps := by
    obtain ⟨events, hhist, hsrv, hown⟩ := h
    rw [hw] at hhist hsrv hown
    rw [show w'.history = events from hhist]
    exact ⟨hsrv, hown⟩
  have hcalm : (∃ t rest, turns = t :: rest ∧ t.Calm) → w.Calm := by
    rw [hw]
    exact fun h => h
  unfold writeBit
  obtain ⟨hgate, hvalid⟩ | ⟨⟨e, hgate⟩, hfault⟩ := bitGate_shared hready c addr
  swap
  · obtain ⟨hsrv, hown⟩ := hfinish (.refl w)
    exact ⟨.fail e, c, w, Eff.bind_fail hgate, hsrv, .inl ⟨⟨e, rfl⟩, none, hown, by simp⟩,
      fun hvalid hconn _ _ ht => absurd ⟨hvalid, hconn, hcalm ht⟩ hfault⟩
  obtain ⟨ref, pduRef, href⟩ : ∃ ref pduRef, nextPDURef (c, w) = (.ok ref, ({ c with pduRef }, w)) :=
    ⟨_, _, nextPDURef_apply c w⟩
  rw [Eff.bind_ok hgate, Eff.bind_ok href]
  obtain ⟨db, o, k, haddr, ho, hk⟩ := validateBitAddress_ok hvalid
  obtain ⟨area, harea⟩ : ∃ area, addr.area = area := ⟨_, rfl⟩
  rw [harea] at haddr
  subst haddr
  obtain ⟨req, hreq⟩ : ∃ req, req = message rosctrJob ref ([funcWriteVar, 1] ++ bitItem area db o k)
      [0x00, dataTransportSizeBit, 0x00, 0x01, if v then 1 else 0, 0x00] := ⟨_, rfl⟩
  have henc : encodeWriteVarBitRequest ref ⟨area, db.toNat, o, k⟩ v = .ok req := by
    unfold encodeWriteVarBitRequest
    rw [encodeS7AnyBit_eq area db ho hk, Outcome.ok_bind, hreq]
    exact encodeMessage_eq (by simp) (by simp)
  have hlen : req.length = 30 := by
    rw [hreq, length_message]
    simp
  unfold BitAddress.s7Any
  dsimp only
  rw [henc, asValidation_ok, Eff.bind_ok (Eff.lift_apply _ _)]
  have hserve (m : Memory) : ∃ code s, handle cfg req ⟨m, w.server.pduSize id⟩ =
        (.ok (some (ackData ref 0 0 [funcWriteVar, 1] [code]), true), s) ∧
      (code = retCodeSuccess → SetsBit (Address.key ⟨area, db.toNat, o, 1⟩) o k v (m, s.mem)) ∧
      (code ≠ retCodeSuccess → s.mem = m ∧ ¬m.Takes ⟨area, db.toNat, o, 1⟩ (o + 1)) := by
    obtain ⟨code, s, hs, -, hbit⟩ := handle_bit ⟨m, w.server.pduSize id⟩ ref ho hk v
    exact ⟨code, s, by rw [hreq]; exact hs, hbit⟩
  obtain ⟨w', ⟨⟨e, hfail⟩, hnot, last, hext, hmay⟩ | ⟨hok, -, -, step, hext, hsets⟩⟩ :=
    writeExchange_shared (fun hkept h => h.kept hkept) hready { c with pduRef } ref hserve
  · obtain ⟨hsrv, hown⟩ := hfinish hext
    refine ⟨.fail e, _, w', hfail, hsrv, .inl ⟨⟨e, rfl⟩, last, hown, hmay⟩, fun _ hconn hpdu htakes ht => ?_⟩
    rw [hw] at hnot
    exact absurd ⟨⟨hconn, by rw [hlen]; dsimp only; omega⟩, ht, htakes⟩ hnot
  · obtain ⟨hsrv, hown⟩ := hfinish hext
    exact ⟨.ok (), _, w', hok, hsrv, .inr ⟨rfl, step, hown, hsets⟩, fun _ _ _ _ _ => rfl⟩

/-- The host writes the byte before the request is served. -/
def hostTurns : List (Interlude 0) :=
  [{ others := [.write areaDB 1 0 [0xf0]], foreign := List.forall_mem_singleton.mpr rfl }]

/-- The bit is set in what the host has written. -/
theorem write_bit_shared_host :
    ∃ res c' w', writeBit (sharedNet defaultConfig 0) ⟨areaDB, 1, 0, 2⟩ true
        (⟨true, 240, 0, 0⟩, { server := ⟨dbSession.mem, fun _ => 240⟩, turns := hostTurns }) = (res, (c', w')) ∧
      res = .ok () ∧ (w'.server.mem.byteAt { area := areaDB, db := 1 } 0) = some 0xf4 := by
  obtain ⟨res, c', w', hrun, -, -, hlive⟩ :=
    write_bit_shared defaultConfig 0 ⟨true, 240, 0, 0⟩ ⟨dbSession.mem, fun _ => 240⟩ hostTurns ⟨areaDB, 1, 0, 2⟩ true
  have hbyte : (writeBit (sharedNet defaultConfig 0) ⟨areaDB, 1, 0, 2⟩ true
      (⟨true, 240, 0, 0⟩, { server := ⟨dbSession.mem, fun _ => 240⟩, turns := hostTurns })).2.2.server.mem.byteAt
        { area := areaDB, db := 1 } 0 = some 0xf4 := by
    decide +kernel
  refine ⟨res, c', w', hrun, ?_, ?_⟩
  · exact hlive rfl rfl (.inr (by decide)) ⟨rfl, _, _, rfl, rfl, rfl, by decide⟩ ⟨_, _, rfl, rfl, rfl, rfl⟩
  · rw [hrun] at hbyte
    exact hbyte

end S7Comm
