import S7Comm.Client.Client

/-! The exchange of one request for one answer: where the sections that `sendReceive` returns come from, and what it
    keeps of the client and of the world behind the connection. -/

namespace S7Comm
open Go

theorem asValidation_eq_ok {α : Type} {r : Res α} {a : α} : asValidation r = .ok a ↔ r = .ok a := by
  cases r <;> simp [asValidation]

theorem asProtocolFailure_eq_ok {α : Type} {what : String} {r : Res α} {a : α} :
    asProtocolFailure what r = .ok a ↔ r = .ok a := by
  cases r <;> simp [asProtocolFailure]

/-- Sections come from a PDU that carries the expected reference. -/
theorem responseSections_ref {pdu : Bytes} {ref : UInt16} {sections : Bytes × Bytes}
    (h : responseSections pdu ref = .ok sections) (hne : ref ≠ 0) :
    ∃ header rest, parseS7Header pdu = .ok (header, rest) ∧ header.pduRef = ref := by
  unfold responseSections at h
  split at h
  · cases h
  · cases h
  · rename_i header rest hparse
    split at h
    · cases h
    · rename_i href
      exact ⟨header, rest, hparse, by simpa [hne] using href⟩

theorem netErr_eq_ok {σ : Type} {op : σ → Option GoError × σ} {c : Client} {w : σ} {u : Unit} {p : Client × σ} :
    netErr op (c, w) = (.ok u, p) ↔ ∃ w', op w = (none, w') ∧ p = (c, w') := by
  rcases hop : op w with ⟨_ | _, w'⟩ <;> simp [netErr, hop, eq_comm]

theorem netVal_eq_ok {σ α : Type} {op : σ → Except GoError α × σ} {c : Client} {w : σ} {a : α} {p : Client × σ} :
    netVal op (c, w) = (.ok a, p) ↔ ∃ w', op w = (.ok a, w') ∧ p = (c, w') := by
  rcases hop : op w with ⟨_ | _, w'⟩ <;> simp [netVal, hop, eq_comm]

/-- The request goes out whole. -/
def Fits (c : Client) (req : Bytes) : Prop := c.connected = true ∧ ¬(c.pduSize > 0 ∧ req.length > c.pduSize)

section Sent
variable {σ : Type} {net : Net σ} {req pdu : Bytes} {ref : UInt16} {c : Client} {w w₁ w₂ w₃ : σ} {err : GoError}

/-- The client refuses to send: the world is as it was. -/
theorem sendReceive_unsent (h : ¬Fits c req) :
    ∃ err, err.isPDURefMismatch = false ∧ sendReceive net req ref (c, w) = (.fail err, (c, w)) := by
  unfold sendReceive
  rw [Eff.bind_ok (Eff.get_apply _)]
  dsimp only
  split
  · exact ⟨_, rfl, rfl⟩
  split
  · exact ⟨_, rfl, rfl⟩
  · rename_i hconn hfit
    exact absurd ⟨by simpa using hconn, hfit⟩ h

/-- A connected client sends a request that fits the PDU. -/
theorem sendReceive_sent (hconn : c.connected = true) (hfit : ¬(c.pduSize > 0 ∧ req.length > c.pduSize)) :
    sendReceive net req ref (c, w) =
      (netErr (net.writeTSDU req) >>= fun _ => netErr net.ctxErr >>= fun _ => netVal net.readTSDU >>= fun pdu =>
        liftM (responseSections pdu ref)) (c, w) := by
  unfold sendReceive
  rw [Eff.bind_ok (Eff.get_apply _)]
  dsimp only
  rw [if_neg (by simp [hconn]), if_neg hfit]

theorem netErr_ok {op : σ → Option GoError × σ} (h : op w = (none, w₁)) : netErr op (c, w) = (.ok (), (c, w₁)) := by
  simp [netErr, h]

theorem netErr_fail {op : σ → Option GoError × σ} (h : op w = (some err, w₁)) : netErr op (c, w) = (.fail err, (c, w₁)) := by
  simp [netErr, h]

theorem netVal_fail {α : Type} {op : σ → Except GoError α × σ} (h : op w = (.error err, w₁)) :
    netVal op (c, w) = (.fail err, (c, w₁)) := by
  simp [netVal, h]

theorem sendReceive_write_fail (hconn : c.connected = true) (hfit : ¬(c.pduSize > 0 ∧ req.length > c.pduSize))
    (hwrite : net.writeTSDU req w = (some err, w₁)) : sendReceive net req ref (c, w) = (.fail err, (c, w₁)) := by
  rw [sendReceive_sent hconn hfit, Eff.bind_fail (netErr_fail hwrite)]

theorem sendReceive_ctx_fail (hconn : c.connected = true) (hfit : ¬(c.pduSize > 0 ∧ req.length > c.pduSize))
    (hwrite : net.writeTSDU req w = (none, w₁)) (hctx : net.ctxErr w₁ = (some err, w₂)) :
    sendReceive net req ref (c, w) = (.fail err, (c, w₂)) := by
  rw [sendReceive_sent hconn hfit, Eff.bind_ok (netErr_ok hwrite), Eff.bind_fail (netErr_fail hctx)]

theorem sendReceive_read_fail (hconn : c.connected = true) (hfit : ¬(c.pduSize > 0 ∧ req.length > c.pduSize))
    (hwrite : net.writeTSDU req w = (none, w₁)) (hctx : net.ctxErr w₁ = (none, w₂))
    (hread : net.readTSDU w₂ = (.error err, w₃)) : sendReceive net req ref (c, w) = (.fail err, (c, w₃)) := by
  rw [sendReceive_sent hconn hfit, Eff.bind_ok (netErr_ok hwrite), Eff.bind_ok (netErr_ok hctx),
    Eff.bind_fail (netVal_fail hread)]

theorem sendReceive_read (hconn : c.connected = true) (hfit : ¬(c.pduSize > 0 ∧ req.length > c.pduSize))
    (hwrite : net.writeTSDU req w = (none, w₁)) (hctx : net.ctxErr w₁ = (none, w₂))
    (hread : net.readTSDU w₂ = (.ok pdu, w₃)) :
    sendReceive net req ref (c, w) = (responseSections pdu ref, (c, w₃)) := by
  rw [sendReceive_sent hconn hfit, Eff.bind_ok (netErr_ok hwrite), Eff.bind_ok (netErr_ok hctx),
    Eff.bind_ok (netVal_eq_ok.mpr ⟨w₃, hread, rfl⟩), Eff.lift_apply]

end Sent

/-- What `sendReceive` returned came from the PDU it read. -/
theorem sendReceive_ok {σ : Type} {net : Net σ} {req : Bytes} {ref : UInt16} {c c' : Client} {w w' : σ}
    {sections : Bytes × Bytes} (h : sendReceive net req ref (c, w) = (.ok sections, (c', w'))) :
    ∃ w₁ w₂ pdu, net.writeTSDU req w = (none, w₁) ∧ net.ctxErr w₁ = (none, w₂) ∧
      net.readTSDU w₂ = (.ok pdu, w') ∧ responseSections pdu ref = .ok sections ∧ c' = c := by
  by_cases hsent : c.connected = true ∧ ¬(c.pduSize > 0 ∧ req.length > c.pduSize)
  swap
  · obtain ⟨err, -, hfail⟩ : ∃ err, _ ∧ sendReceive net req ref (c, w) = (.fail err, (c, w)) := sendReceive_unsent hsent
    rw [hfail] at h
    cases h
  rw [sendReceive_sent hsent.1 hsent.2] at h
  obtain ⟨_, p₁, h₁, h⟩ := Eff.bind_eq_ok.mp h
  obtain ⟨w₁, hwrite, rfl⟩ := netErr_eq_ok.mp h₁
  obtain ⟨_, p₂, h₂, h⟩ := Eff.bind_eq_ok.mp h
  obtain ⟨w₂, hctx, rfl⟩ := netErr_eq_ok.mp h₂
  obtain ⟨pdu, p₃, h₃, h⟩ := Eff.bind_eq_ok.mp h
  obtain ⟨w₃, hread, rfl⟩ := netVal_eq_ok.mp h₃
  rw [Eff.lift_apply] at h
  obtain ⟨hsections, hp⟩ := Prod.mk.inj h
  cases hp
  exact ⟨w₁, w₂, pdu, hwrite, hctx, hread, hsections, rfl⟩

/-! ### What an exchange keeps -/

section Preserves
variable {σ : Type} {net : Net σ} {P : Client × σ → Prop}

theorem netErr_preserves {op : σ → Option GoError × σ} (h : ∀ c w, P (c, w) → P (c, (op w).2)) :
    Eff.Preserves P (netErr op) := by
  rintro ⟨c, w⟩ hp
  have hop := h c w hp
  rcases ho : op w with ⟨_ | _, w'⟩
  · simpa [netErr, ho] using hop
  · simpa [netErr, ho] using hop

theorem netVal_preserves {α : Type} {op : σ → Except GoError α × σ} (h : ∀ c w, P (c, w) → P (c, (op w).2)) :
    Eff.Preserves P (netVal op) := by
  rintro ⟨c, w⟩ hp
  have hop := h c w hp
  rcases ho : op w with ⟨_ | _, w'⟩
  · simpa [netVal, ho] using hop
  · simpa [netVal, ho] using hop

/-- An exchange keeps what the operations of the connection keep. -/
theorem sendReceive_preserves {req : Bytes} (hwrite : ∀ c w, P (c, w) → P (c, (net.writeTSDU req w).2))
    (hctx : ∀ c w, P (c, w) → P (c, (net.ctxErr w).2)) (hread : ∀ c w, P (c, w) → P (c, (net.readTSDU w).2))
    (ref : UInt16) : Eff.Preserves P (sendReceive net req ref) := by
  unfold sendReceive
  refine Eff.preserves_get.bind fun p => ?_
  obtain ⟨c, w⟩ := p
  dsimp only
  split
  · exact Eff.preserves_fail _
  split
  · exact Eff.preserves_fail _
  · exact (netErr_preserves hwrite).bind fun _ => (netErr_preserves hctx).bind fun _ =>
      (netVal_preserves hread).bind fun _ => Eff.preserves_lift _

end Preserves
end S7Comm
