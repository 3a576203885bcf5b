import S7Comm.System.Link
import S7Comm.Theorems.SendReceive
import S7Comm.Theorems.SingleItem

/-! One exchange between the client and the server, and the chunks of a call. -/

namespace S7Comm
open Go

/-! ### Exchanges -/

/-- Between two exchanges the connection is held and nothing is on its way. -/
structure Idle (w : Link) : Prop where
  kept : w.kept = true
  inbox : w.inbox = []

/-- The link after an exchange. -/
def Link.after (w : Link) (session : Session) (req out : Bytes) : Link :=
  { w with session, requests := w.requests ++ [req], answers := w.answers ++ [out] }

theorem Idle.after {w : Link} (h : Idle w) (session : Session) (req out : Bytes) : Idle (w.after session req out) :=
  ⟨h.kept, h.inbox⟩

/-- Client and server as Setup Communication leaves them, and as every exchange does: one PDU size for both. -/
structure Linked (p : Nat) (c : Client) (w : Link) : Prop where
  connected : c.connected = true
  client : c.pduSize = p
  session : w.session.pduSize = p
  idle : Idle w

/-- No request and no answer of the call is longer than the PDU. -/
structure Link.Within (w : Link) (p : Nat) : Prop where
  requests : ∀ req ∈ w.requests, req.length ≤ p
  answers : ∀ out ∈ w.answers, out.length ≤ p

theorem Link.Within.after {w : Link} {p : Nat} (h : w.Within p) (session : Session) {req out : Bytes}
    (hreq : req.length ≤ p) (hout : out.length ≤ p) : (w.after session req out).Within p := by
  constructor
  · intro t ht
    rcases List.mem_append.mp ht with ht | ht
    · exact h.requests t ht
    · rw [List.mem_singleton.mp ht]
      exact hreq
  · intro t ht
    rcases List.mem_append.mp ht with ht | ht
    · exact h.answers t ht
    · rw [List.mem_singleton.mp ht]
      exact hout

theorem nextPDURef_apply {σ : Type} (c : Client) (w : σ) :
    nextPDURef (c, w) = (.ok (nextPDURefFrom c.pduRef).1, ({ c with pduRef := (nextPDURefFrom c.pduRef).2 }, w)) := rfl

section Exchange
variable (cfg : ServerConfig) {c : Client} {w : Link} (ref : UInt16) {req out : Bytes}

/-- A request that fits the PDU is answered by the session, and the client takes the sections of the answer. -/
theorem sendReceive_link (hw : Idle w) (hc : c.connected = true) (hfits : ¬(c.pduSize > 0 ∧ req.length > c.pduSize))
    {s' : Session} (hserve : handle cfg req w.session = (.ok (some out, true), s')) :
    sendReceive (serverNet cfg) req ref (c, w) = (responseSections out ref, (c, w.after s' req out)) := by
  obtain ⟨session, kept, inbox, requests, answers⟩ := w
  obtain ⟨rfl, rfl⟩ := hw
  have hwrite : (serverNet cfg).writeTSDU req ⟨session, true, [], requests, answers⟩ =
      (none, ⟨s', true, [out], requests ++ [req], answers ++ [out]⟩) := by
    simp only [serverNet, Link.serve, ↓reduceIte, hserve]
    rfl
  exact sendReceive_read hc hfits hwrite rfl rfl

/-- An exchange on a link leaves a link, with the session that the request leaves. -/
theorem Linked.exchange {p : Nat} (hw : Linked p c w) (hreq : req.length ≤ p) {s' : Session}
    (hserve : handle cfg req w.session = (.ok (some out, true), s')) (hs : s'.pduSize = p) :
    ∃ w', sendReceive (serverNet cfg) req ref (c, w) = (responseSections out ref, (c, w')) ∧ Linked p c w' ∧
      w'.session = s' := by
  have hfits : ¬(c.pduSize > 0 ∧ req.length > c.pduSize) := by
    rw [hw.client]
    omega
  exact ⟨_, sendReceive_link cfg ref hw.idle hw.connected hfits hserve,
    ⟨hw.connected, hw.client, hs, hw.idle.after _ _ _⟩, rfl⟩

/-- The context does not end between chunks. -/
theorem chunkGate_link (first : Bool) : chunkGate (serverNet cfg) first (c, w) = (.ok (), (c, w)) := by
  unfold chunkGate
  rw [Eff.bind_ok (show netErr (serverNet cfg).ctxErr (c, w) = (.ok (), (c, w)) from rfl),
    Eff.bind_ok (Eff.get_apply _)]
  dsimp only
  split <;> rfl

end Exchange

/-! ### Addresses and chunks -/

/-- The address lies in a registered region that is read and written by the byte. -/
structure Registered (mem : Memory) (addr : Address) (db : Nat) (reg : Region) : Prop where
  db_eq : addr.dbNumber = db
  db_le : db ≤ 65535
  plain : Area.timerOrCounter addr.area = false
  found : ∃ key, keyOf addr.area db = .ok key ∧ mem.regions key = some reg

/-- The areas of bytes are not the timers or counters. -/
theorem timerOrCounter_eq_false {area : UInt8}
    (h : area = areaInputs ∨ area = areaOutputs ∨ area = areaMerkers ∨ area = areaDB) :
    Area.timerOrCounter area = false := by
  rcases h with h | h | h | h <;> rw [h] <;> rfl

/-- The numbers of a valid address are natural numbers. -/
theorem validateAddress_ok {addr : Address} (h : validateAddress addr = .ok ()) :
    ∃ db start size : Nat, addr.dbNumber = db ∧ addr.start = start ∧ addr.size = size ∧ db ≤ 65535 := by
  unfold validateAddress at h
  split_ifs at h with h₁ h₂ h₃ h₄ h₅
  obtain ⟨h₄, h₄'⟩ := not_or.mp h₄
  obtain ⟨start, hstart⟩ := Int.eq_ofNat_of_zero_le (Int.not_lt.mp h₁)
  obtain ⟨size, hsize⟩ := Int.eq_ofNat_of_zero_le (Int.not_lt.mp h₂)
  obtain ⟨db, hdb⟩ := Int.eq_ofNat_of_zero_le (Int.not_lt.mp h₄)
  rw [hdb] at h₄'
  exact ⟨db, start, size, hdb, hstart, hsize, Int.ofNat_le.mp (Int.not_lt.mp h₄')⟩

theorem validateRangeEnd_ok {start n : Int} (h : validateRangeEnd start n = .ok ()) :
    start + n ≤ maxS7AnyByteOffset + 1 := by
  unfold validateRangeEnd at h
  split_ifs at h with h₁
  omega

theorem planLoop_spec {maxChunk : Nat} (pos : 0 < maxChunk) (remaining : Nat) :
    (planLoop maxChunk pos remaining).sum = remaining ∧ ∀ n ∈ planLoop maxChunk pos remaining, 0 < n ∧ n ≤ maxChunk := by
  induction remaining using Nat.strong_induction_on with
  | _ remaining ih =>
    unfold planLoop
    split
    · rename_i h
      simp [h]
    · rename_i h
      obtain ⟨hsum, hall⟩ := ih (remaining - min remaining maxChunk) (by omega)
      refine ⟨by rw [List.sum_cons, hsum]; omega, ?_⟩
      rw [List.forall_mem_cons]
      exact ⟨by omega, hall⟩

/-- The chunks of a call add up to it, and each is within the chunk size. -/
theorem planReadChunks_spec (total : Nat) {maxChunk : Nat} (pos : 0 < maxChunk) :
    (planReadChunks total maxChunk).sum = total ∧ ∀ n ∈ planReadChunks total maxChunk, 0 < n ∧ n ≤ maxChunk := by
  unfold planReadChunks
  split
  · rename_i h
    simp [h]
  split
  · omega
  · exact planLoop_spec pos total

theorem maxChunkData_eq {pduSize overhead : Nat} (h : overhead < pduSize) :
    maxChunkData pduSize overhead = pduSize - overhead := by
  unfold maxChunkData
  exact if_neg (by omega)

theorem maxChunkData_pos (pduSize overhead : Nat) : 0 < maxChunkData pduSize overhead := by
  unfold maxChunkData
  dsimp only
  split <;> omega

theorem maxChunkData_le {pduSize : Nat} (h : pduSize ≤ 65535) (overhead : Nat) :
    maxChunkData pduSize overhead ≤ 65535 := by
  unfold maxChunkData
  dsimp only
  split <;> omega

end S7Comm
