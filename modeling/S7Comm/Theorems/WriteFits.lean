import S7Comm.Lib.Failure
import S7Comm.Theorems.AnswerBounds
import S7Comm.Theorems.LinkWrite

/-! The requests of `WriteArea` and the PDU. A chunk has all the bytes that the PDU leaves for data; the encoder pads an
    odd chunk and counts its bits in 16 bits, so that not every chunk can be sent. -/

namespace S7Comm
open Go

/-! ### Chunks that can be sent -/

/-- The writes all of whose chunks can be sent: one chunk that leaves room for its padding, or chunks of an even size,
    and in both cases a size that can be counted in bits. -/
def WriteFits (p len : Nat) : Prop :=
  len + writeVarRequestOverhead < p ∧ len ≤ maxWriteVarBytes ∨
    p % 2 = 0 ∧ p ≤ writeVarRequestOverhead + maxWriteVarBytes

theorem planReadChunks_head {total maxChunk : Nat} (ht : 0 < total) (hpos : 0 < maxChunk) :
    ∃ rest, planReadChunks total maxChunk = min total maxChunk :: rest := by
  unfold planReadChunks planLoop
  rw [dif_neg (Nat.ne_of_gt ht), dif_neg (Nat.ne_of_gt hpos), dif_neg (Nat.ne_of_gt ht)]
  exact ⟨_, rfl⟩

section Plan
variable {p len : Nat} (hp : 30 ≤ p)
include hp

/-- The first chunk is the one that decides. -/
theorem writeFits_iff_head : WriteFits p len ↔ Sendable p (min len (p - 28)) := by
  have hover : writeVarRequestOverhead = 28 := rfl
  have hmax : maxWriteVarBytes = 8191 := rfl
  unfold WriteFits Sendable
  rw [hover, hmax]
  omega

theorem writeFits_iff : WriteFits p len ↔
    ∀ n ∈ planReadChunks len (maxChunkData p writeVarRequestOverhead), Sendable p n := by
  have hchunk : maxChunkData p writeVarRequestOverhead = p - 28 :=
    maxChunkData_eq (show 28 < p from Nat.lt_of_lt_of_le (by decide) hp)
  rw [hchunk]
  obtain ⟨hsum, hall⟩ := planReadChunks_spec len (show 0 < p - 28 by omega)
  constructor
  · intro hfits n hn
    have hle := List.le_sum_of_mem hn
    obtain ⟨-, hle'⟩ := hall n hn
    have hfirst := (writeFits_iff_head hp).mp hfits
    unfold Sendable at hfirst ⊢
    omega
  · intro hall
    rw [writeFits_iff_head hp]
    rcases Nat.eq_zero_or_pos len with rfl | hlen
    · exact ⟨by simp, by simp; omega⟩
    · obtain ⟨rest, hplan⟩ := planReadChunks_head hlen (show 0 < p - 28 by omega)
      exact hall _ (hplan ▸ List.mem_cons_self)

end Plan

/-- Each request of a write can be encoded, and it fits the PDU. -/
def RequestsFit (p : Nat) (addr : Address) (data : Bytes) : Prop :=
  ∀ (before after : List Nat) (n : Nat) (ref : UInt16),
    planReadChunks data.length (maxChunkData p writeVarRequestOverhead) = before ++ n :: after →
    ∃ req, encodeWriteVarRequest ref ⟨addr.area, addr.dbNumber, addr.start + before.sum, n⟩
      ((data.drop before.sum).take n) = .ok req ∧ req.length ≤ p

section Requests
variable {p : Nat} {addr : Address} {db start : Nat} {data : Bytes}

/-- A chunk is encoded, padded to an even size, or has too many bits to be counted. -/
theorem encodeWriteVarRequest_chunk (haddr : Writable addr db start data.length) {offset n : Nat} (hpos : 0 < n)
    (hle : offset + n ≤ data.length) (ref : UInt16) :
    (n * 8 ≤ 65535 ∧ ∃ req, encodeWriteVarRequest ref ⟨addr.area, addr.dbNumber, addr.start + offset, n⟩
        ((data.drop offset).take n) = .ok req ∧ req.length = 28 + n + n % 2) ∨
      ¬n * 8 ≤ 65535 ∧ ∃ e, encodeWriteVarRequest ref ⟨addr.area, addr.dbNumber, addr.start + offset, n⟩
        ((data.drop offset).take n) = .fail e := by
  obtain ⟨hdb, hdble, hstart, hlast⟩ := haddr
  obtain ⟨chunk, hchunk⟩ : ∃ chunk, (data.drop offset).take n = chunk := ⟨_, rfl⟩
  obtain rfl : chunk.length = n := by
    rw [← hchunk, List.length_take, List.length_drop]
    omega
  have hint : addr.start + (offset : Int) = ((start + offset : Nat) : Int) := by
    rw [hstart]
    rfl
  rw [hchunk, hdb, hint]
  by_cases hbits : chunk.length * 8 ≤ 65535
  · exact .inl ⟨hbits, _, encodeWriteVarRequest_eq ref ⟨hdble, by omega, by omega⟩ hbits, length_writeRequest ref chunk⟩
  · exact .inr ⟨hbits, encodeWriteVarRequest_fail ref _ hbits⟩

theorem encodeWriteVarRequest_chunk_iff (hp : 0 < p) (haddr : Writable addr db start data.length) {offset n : Nat}
    (hpos : 0 < n) (hle : offset + n ≤ data.length) (ref : UInt16) :
    (∃ req, encodeWriteVarRequest ref ⟨addr.area, addr.dbNumber, addr.start + offset, n⟩ ((data.drop offset).take n) =
      .ok req ∧ req.length ≤ p) ↔ Sendable p n := by
  rcases encodeWriteVarRequest_chunk haddr hpos hle ref with ⟨hbits, req, hreq, hlen⟩ | ⟨hbits, e, he⟩
  · rw [hreq]
    constructor
    · rintro ⟨_, ⟨⟩, hfits⟩
      exact ⟨hbits, by omega⟩
    · rintro ⟨-, hfits⟩
      exact ⟨_, rfl, by omega⟩
  · rw [he]
    refine iff_of_false ?_ fun h => hbits h.1
    rintro ⟨_, ⟨⟩, -⟩

theorem requestsFit_iff (hp : 30 ≤ p) (haddr : Writable addr db start data.length) :
    RequestsFit p addr data ↔ WriteFits p data.length := by
  obtain ⟨hsum, hall⟩ := planReadChunks_spec data.length (maxChunkData_pos p writeVarRequestOverhead)
  have hchunk {before after : List Nat} {n : Nat}
      (hplan : planReadChunks data.length (maxChunkData p writeVarRequestOverhead) = before ++ n :: after) :
      0 < n ∧ before.sum + n ≤ data.length := by
    obtain ⟨hn, -⟩ := hall n (by rw [hplan]; simp)
    rw [hplan, List.sum_append, List.sum_cons] at hsum
    exact ⟨hn, by omega⟩
  rw [writeFits_iff hp]
  constructor
  · intro hfit n hn
    obtain ⟨before, after, hplan⟩ := List.append_of_mem hn
    obtain ⟨hpos, hle⟩ := hchunk hplan
    exact (encodeWriteVarRequest_chunk_iff (by omega) haddr hpos hle 0).mp (hfit before after n 0 hplan)
  · intro hsend before after n ref hplan
    obtain ⟨hpos, hle⟩ := hchunk hplan
    exact (encodeWriteVarRequest_chunk_iff (by omega) haddr hpos hle ref).mpr (hsend n (by rw [hplan]; simp))

end Requests

/-! ### Refusals -/

/-- Whether `errors.As` finds a `*client.ValidationError`. -/
def GoError.isValidation : GoError → Bool
  | validation _ => true
  | wrap _ c => c.isValidation
  | join l r => l.isValidation || r.isValidation
  | _ => false

/-- The client itself refused the request: it is too long for the PDU, or it cannot be encoded. -/
def GoError.isRefusal (e : GoError) : Bool := e.is .requestExceedsPDU || e.isValidation

/-- The context or the connection returns this error. -/
inductive Net.Returns {σ : Type} (net : Net σ) (err : GoError) : Prop where
  | ctx (w w' : σ) (h : net.ctxErr w = (some err, w'))
  | wait (w w' : σ) (h : net.wait w = (some err, w'))
  | write (req : Bytes) (w w' : σ) (h : net.writeTSDU req w = (some err, w'))
  | read (w w' : σ) (h : net.readTSDU w = (.error err, w'))

/-- The call returns no refusal. -/
abbrev Unrefused {α : Type} (x : Res α) : Prop := x.FailsOnly fun e => e.isRefusal = false

theorem ackError_unrefused (data : Bytes) (rosctr : UInt8) : Unrefused (ackError data rosctr) := by
  unfold ackError
  split
  · split
    · exact Outcome.failsOnly_fail rfl
    · exact (failsOnly_index _ _).bind fun _ => (failsOnly_index _ _).bind fun _ => Outcome.failsOnly_ok _
  · exact Outcome.failsOnly_ok _

theorem parseS7Header_unrefused (data : Bytes) : Unrefused (parseS7Header data) := by
  unfold parseS7Header
  split
  · exact Outcome.failsOnly_fail rfl
  refine (failsOnly_index _ _).bind fun protocolID => ?_
  split
  · exact Outcome.failsOnly_fail rfl
  refine (failsOnly_index _ _).bind fun rosctr => (failsOnly_uint16At _ _).bind fun redundancyID =>
    (failsOnly_uint16At _ _).bind fun pduRef => (failsOnly_uint16At _ _).bind fun paramLength =>
    (failsOnly_uint16At _ _).bind fun dataLength => (ackError_unrefused _ _).bind fun ack =>
    (failsOnly_slice _ _ _).bind fun rest => ?_
  dsimp only
  split
  · exact Outcome.failsOnly_fail rfl
  · exact Outcome.failsOnly_ok _

theorem newS7ErrorWithParam_unrefused (cls code : UInt8) (param : Bytes) :
    Unrefused (newS7ErrorWithParam cls code param) := by
  unfold newS7ErrorWithParam paramErrorFromParam
  split
  · exact Outcome.failsOnly_ok _
  · refine ((failsOnly_uint16At _ _).bind fun _ => Outcome.failsOnly_ok _).bind fun r => ?_
    dsimp only
    split
    · exact Outcome.failsOnly_ok _
    · exact Outcome.failsOnly_ok _

theorem errorParam_unrefused (header : S7Header) (rest : Bytes) : Unrefused (errorParam header rest) := by
  unfold errorParam
  dsimp only
  split
  · exact failsOnly_slice _ _ _
  · exact Outcome.failsOnly_ok _

theorem responseSections_unrefused (pdu : Bytes) (ref : UInt16) : Unrefused (responseSections pdu ref) := by
  unfold responseSections
  split
  · exact Outcome.failsOnly_panic
  · rename_i err herr
    refine Outcome.failsOnly_fail ?_
    have hunrefused : err.isRefusal = false := parseS7Header_unrefused pdu err herr
    simpa [GoError.isRefusal, GoError.is, GoError.isValidation] using hunrefused
  · split
    · exact Outcome.failsOnly_fail rfl
    split
    · exact (errorParam_unrefused _ _).bind fun _ => (newS7ErrorWithParam_unrefused _ _ _).bind fun _ =>
        Outcome.failsOnly_fail rfl
    dsimp only
    split
    · exact Outcome.failsOnly_fail rfl
    · exact (failsOnly_slice _ _ _).bind fun _ => (failsOnly_slice _ _ _).bind fun _ => Outcome.failsOnly_ok _

theorem firstItemError_unrefused {count i : Nat} {codes : Bytes} {err : GoError}
    (h : firstItemError count i codes = some err) : err.isRefusal = false := by
  induction codes generalizing i with
  | nil => cases h
  | cons code codes ih =>
    unfold firstItemError returnCodeError at h
    by_cases hcode : code = retCodeSuccess
    · rw [if_pos hcode] at h
      exact ih h
    · rw [if_neg hcode] at h
      dsimp only at h
      split at h <;> cases h <;> rfl

theorem parseWriteVarResponse_unrefused (param data : Bytes) : Unrefused (parseWriteVarResponse param data) := by
  have hcodes : Unrefused (parseWriteVarResponseCodes param data) := by
    unfold parseWriteVarResponseCodes
    split
    · exact Outcome.failsOnly_fail rfl
    refine (failsOnly_index _ _).bind fun fn => ?_
    split
    · exact Outcome.failsOnly_fail rfl
    refine (failsOnly_index _ _).bind fun n => ?_
    dsimp only
    split
    · exact Outcome.failsOnly_fail rfl
    · exact failsOnly_slice _ _ _
  unfold parseWriteVarResponse
  refine hcodes.bind fun codes => ?_
  split
  · rename_i err herr
    exact Outcome.failsOnly_fail (firstItemError_unrefused herr)
  · exact Outcome.failsOnly_ok _

/-! ### Runs -/

section Run
variable {σ : Type} {net : Net σ} {p : Nat} {addr : Address} {db start : Nat} {data : Bytes}

/-- An error of a write that is a refusal is one that the connection returned. -/
def Blameless (net : Net σ) (e : GoError) : Prop := e.isRefusal = true → net.Returns e

theorem Unrefused.blameless {α : Type} {x : Res α} (h : Unrefused x) : x.FailsOnly (Blameless net) :=
  h.mono fun e he hrefusal => absurd hrefusal (by simp [he])

theorem netErr_blameless {op : σ → Option GoError × σ} (h : ∀ err w w', op w = (some err, w') → net.Returns err) :
    Eff.FailsOnly (fun st : Client × σ => st.1.pduSize = p) (Blameless net) (netErr op) := by
  refine ⟨netErr_preserves fun c w hp => hp, ?_⟩
  rintro ⟨c, w⟩ - e hfail -
  rcases hop : op w with ⟨_ | err, w'⟩
  · rw [netErr_ok hop] at hfail
    cases hfail
  · rw [netErr_fail hop] at hfail
    cases hfail
    exact h _ w w' hop

theorem netVal_blameless {α : Type} {op : σ → Except GoError α × σ}
    (h : ∀ err w w', op w = (.error err, w') → net.Returns err) :
    Eff.FailsOnly (fun st : Client × σ => st.1.pduSize = p) (Blameless net) (netVal op) := by
  refine ⟨netVal_preserves fun c w hp => hp, ?_⟩
  rintro ⟨c, w⟩ - e hfail -
  rcases hop : op w with ⟨err | a, w'⟩
  · rw [netVal_fail hop] at hfail
    cases hfail
    exact h _ w w' hop
  · rw [netVal_eq_ok.mpr ⟨w', hop, rfl⟩] at hfail
    cases hfail

theorem chunkGate_blameless (first : Bool) :
    Eff.FailsOnly (fun st : Client × σ => st.1.pduSize = p) (Blameless net) (chunkGate net first) := by
  refine (netErr_blameless fun err w w' h => .ctx w w' h).bind fun _ => Eff.failsOnly_get_bind fun st _ => ?_
  dsimp only
  split
  · exact netErr_blameless fun err w w' h => .wait w w' h
  · exact Eff.failsOnly_pure _

theorem nextPDURef_blameless :
    Eff.FailsOnly (fun st : Client × σ => st.1.pduSize = p) (Blameless net) nextPDURef :=
  ⟨fun _ h => h, fun _ _ => nofun⟩

/-- A request that fits the PDU is sent, and every error is one of the connection or of the answer. -/
theorem sendReceive_blameless {req : Bytes} (hfit : req.length ≤ p) (ref : UInt16) :
    Eff.FailsOnly (fun st : Client × σ => st.1.pduSize = p) (Blameless net) (sendReceive net req ref) := by
  refine Eff.failsOnly_get_bind fun st hp => ?_
  dsimp only at hp ⊢
  split
  · exact Eff.failsOnly_fail nofun
  split
  · omega
  · exact (netErr_blameless fun err w w' h => .write req w w' h).bind fun _ =>
      (netErr_blameless fun err w w' h => .ctx w w' h).bind fun _ =>
      (netVal_blameless fun err w w' h => .read w w' h).bind fun pdu =>
      Eff.failsOnly_lift (responseSections_unrefused pdu ref).blameless

theorem writeChunk_blameless {offset n : Nat} (hle : offset + n ≤ data.length) (first : Bool)
    (hreq : ∀ ref, ∃ req, encodeWriteVarRequest ref ⟨addr.area, addr.dbNumber, addr.start + offset, n⟩
      ((data.drop offset).take n) = .ok req ∧ req.length ≤ p) :
    Eff.FailsOnly (fun st : Client × σ => st.1.pduSize = p) (Blameless net)
      (writeChunk net addr data first offset n) := by
  refine (chunkGate_blameless first).bind fun _ =>
    Eff.failsOnly_lift_bind (failsOnly_slice _ _ _) fun chunk hchunk => ?_
  obtain ⟨-, -, rfl⟩ := slice_eq_ok.mp hchunk
  refine nextPDURef_blameless.bind fun ref => ?_
  obtain ⟨req, hreq, hfit⟩ := hreq ref
  have hlen : ((data.drop offset).take n).length = n := by
    rw [List.length_take, List.length_drop]
    omega
  rw [Nat.add_sub_cancel_left, hlen, hreq]
  exact (sendReceive_blameless hfit ref).bind fun sections =>
    Eff.failsOnly_lift (parseWriteVarResponse_unrefused _ _).blameless

/-- The chunk loop. By induction on the chunks that are left. -/
theorem writeChunks_blameless (hfit : RequestsFit p addr data) {before chunks : List Nat}
    (hplan : planReadChunks data.length (maxChunkData p writeVarRequestOverhead) = before ++ chunks) (first : Bool) :
    Eff.FailsOnly (fun st : Client × σ => st.1.pduSize = p) (Blameless net)
      (writeChunks net addr data chunks first before.sum) := by
  induction chunks generalizing before first with
  | nil => exact Eff.failsOnly_pure _
  | cons n chunks ih =>
    obtain ⟨hsum, -⟩ := planReadChunks_spec data.length (maxChunkData_pos p writeVarRequestOverhead)
    rw [hplan, List.sum_append, List.sum_cons] at hsum
    refine (writeChunk_blameless (by omega) first fun ref => hfit before chunks n ref hplan).bind fun _ => ?_
    have hrest : planReadChunks data.length (maxChunkData p writeVarRequestOverhead) = (before ++ [n]) ++ chunks := by
      rw [hplan, List.append_assoc, List.singleton_append]
    have hloop := ih hrest false
    rwa [List.sum_append, List.sum_singleton] at hloop

end Run

/-- No write is refused by the client: an error of the kind comes from the connection. -/
def NeverRefused (p : Nat) (addr : Address) (data : Bytes) : Prop :=
  ∀ {σ : Type} (net : Net σ) (c : Client) (w : σ) (err : GoError) (st' : Client × σ), c.pduSize = p →
    writeArea net addr data (c, w) = (.fail err, st') → err.isRefusal = true → net.Returns err

theorem neverRefused_of_requestsFit {p : Nat} {addr : Address} {data : Bytes} (hvalid : validateAddress addr = .ok ())
    (hrange : validateRangeEnd addr.start data.length = .ok ()) (hfit : RequestsFit p addr data) :
    NeverRefused p addr data := by
  intro σ net c w err st' hc hrun
  have hall : Eff.FailsOnly (fun st : Client × σ => st.1.pduSize = p) (Blameless net) (writeArea net addr data) := by
    unfold writeArea
    rw [hvalid, hrange]
    refine (Eff.failsOnly_lift (Outcome.failsOnly_ok _)).bind fun _ =>
      (Eff.failsOnly_lift (Outcome.failsOnly_ok _)).bind fun _ =>
      (netErr_blameless fun err w w' h => .ctx w w' h).bind fun _ => Eff.failsOnly_get_bind fun st hp => ?_
    dsimp only at hp ⊢
    rw [hp]
    have hplan : planReadChunks data.length (maxChunkData p writeVarRequestOverhead) = [] ++ _ := rfl
    exact writeChunks_blameless hfit hplan true
  exact hall.error (c, w) hc err (by rw [hrun])

theorem sendReceive_too_long {σ : Type} {net : Net σ} {req : Bytes} {c : Client} (hconn : c.connected = true)
    (hlong : c.pduSize > 0 ∧ req.length > c.pduSize) (ref : UInt16) (w : σ) :
    ∃ err, err.isRefusal = true ∧ sendReceive net req ref (c, w) = (.fail err, (c, w)) := by
  unfold sendReceive
  rw [Eff.bind_ok (Eff.get_apply _)]
  dsimp only
  rw [if_neg (by simp [hconn]), if_pos hlong]
  exact ⟨_, rfl, rfl⟩

/-- A chunk that cannot be sent is refused, once the context lets it start. -/
theorem writeChunk_refused {σ : Type} {net : Net σ} {p : Nat} {addr : Address} {db start : Nat} {data : Bytes}
    {c : Client} {w : σ} {first : Bool} (hconn : c.connected = true) (hc : c.pduSize = p)
    (hgate : chunkGate net first (c, w) = (.ok (), (c, w))) (haddr : Writable addr db start data.length)
    {offset n : Nat} (hpos : 0 < n) (hle : offset + n ≤ data.length) (hnot : ¬Sendable p n) :
    ∃ err st', err.isRefusal = true ∧ writeChunk net addr data first offset n (c, w) = (.fail err, st') := by
  obtain ⟨ref, pduRef, href⟩ : ∃ ref pduRef, nextPDURef (c, w) = (.ok ref, ({ c with pduRef }, w)) :=
    ⟨_, _, nextPDURef_apply c w⟩
  have hlen : ((data.drop offset).take n).length = n := by
    rw [List.length_take, List.length_drop]
    omega
  have hslice : sliceOf data offset (offset + n) = .ok ((data.drop offset).take n) := by
    rw [sliceOf_of_le (by omega) hle, Nat.add_sub_cancel_left]
  unfold writeChunk
  rw [Eff.bind_ok hgate, hslice, Eff.bind_ok (Eff.lift_apply _ _), Eff.bind_ok href, hlen]
  rcases encodeWriteVarRequest_chunk haddr hpos hle ref with ⟨hbits, req, hreq, hreqLen⟩ | ⟨-, e, he⟩
  · have hlong : c.pduSize > 0 ∧ req.length > c.pduSize := by
      rw [hc, hreqLen]
      exact not_not.mp fun h => hnot ⟨hbits, h⟩
    obtain ⟨err, hrefusal, hfail⟩ : ∃ err, err.isRefusal = true ∧
        sendReceive net req ref ({ c with pduRef }, w) = (.fail err, ({ c with pduRef }, w)) :=
      sendReceive_too_long (c := { c with pduRef }) hconn hlong ref w
    rw [hreq]
    exact ⟨err, _, hrefusal, Eff.bind_fail hfail⟩
  · rw [he]
    exact ⟨.validation e.error, _, rfl, rfl⟩

/-- A connection that takes every request and returns no error. -/
def calmNet : Net Unit where
  ctxErr w := (none, w)
  wait w := (none, w)
  writeTSDU _ w := (none, w)
  readTSDU w := (.ok [], w)

theorem not_returns_calmNet (err : GoError) : ¬calmNet.Returns err := by
  rintro (⟨_, _, ⟨⟩⟩ | ⟨_, _, ⟨⟩⟩ | ⟨_, _, _, ⟨⟩⟩ | ⟨_, _, ⟨⟩⟩)

theorem writeFits_of_neverRefused {p : Nat} {addr : Address} {db start : Nat} {data : Bytes} (hp : 30 ≤ p)
    (hvalid : validateAddress addr = .ok ()) (hrange : validateRangeEnd addr.start data.length = .ok ())
    (haddr : Writable addr db start data.length) (h : NeverRefused p addr data) : WriteFits p data.length := by
  by_contra hnot
  rw [writeFits_iff_head hp] at hnot
  have hlen : 0 < data.length := by
    unfold Sendable at hnot
    omega
  have hpos : 0 < p - 28 := by omega
  have hchunk : maxChunkData p writeVarRequestOverhead = p - 28 :=
    maxChunkData_eq (show 28 < p from Nat.lt_of_lt_of_le (by decide) hp)
  obtain ⟨rest, hplan⟩ := planReadChunks_head hlen hpos
  obtain ⟨err, st', hrefusal, hfail⟩ : ∃ err st', err.isRefusal = true ∧
      writeChunk calmNet addr data true 0 (min data.length (p - 28)) (⟨true, p, 0, 0⟩, ()) = (.fail err, st') :=
    writeChunk_refused rfl rfl rfl haddr (by omega) (by omega) hnot
  refine not_returns_calmNet err (h calmNet ⟨true, p, 0, 0⟩ () err st' rfl ?_ hrefusal)
  unfold writeArea
  rw [hvalid, Eff.bind_ok (Eff.lift_apply _ _), hrange, Eff.bind_ok (Eff.lift_apply _ _),
    Eff.bind_ok (show netErr calmNet.ctxErr (⟨true, p, 0, 0⟩, ()) = (.ok (), (⟨true, p, 0, 0⟩, ())) from rfl),
    Eff.bind_ok (Eff.get_apply _)]
  dsimp only
  rw [hchunk, hplan]
  exact Eff.bind_fail hfail

/-- Writes and the PDU size, for every size from 30 on and every write that passes the validation: each of its requests
    can be encoded and fits the PDU just when its chunks are of an even size, or there is one chunk with room for its
    padding, and their bits can be counted; and just then the client never refuses one. -/
theorem write_requests_fit_iff {p : Nat} (hp : 30 ≤ p) {addr : Address} {data : Bytes}
    (hvalid : validateAddress addr = .ok ()) (hrange : validateRangeEnd addr.start data.length = .ok ()) :
    (RequestsFit p addr data ↔ WriteFits p data.length) ∧ (NeverRefused p addr data ↔ WriteFits p data.length) := by
  obtain ⟨db, start, -, hdb, hstart, -, hdble⟩ := validateAddress_ok hvalid
  have hlast := validateRangeEnd_ok hrange
  have haddr : Writable addr db start data.length := ⟨hdb, hdble, hstart, by omega⟩
  have hfit := requestsFit_iff hp haddr
  exact ⟨hfit, writeFits_of_neverRefused hp hvalid hrange haddr,
    fun h => neverRefused_of_requestsFit hvalid hrange (hfit.mpr h)⟩

/-- Three bytes in two chunks, with a PDU size of 30. -/
theorem write_requests_fit_30 :
    RequestsFit 30 ⟨areaDB, 1, 0, 0⟩ [0x01, 0x02, 0x03] ∧ NeverRefused 30 ⟨areaDB, 1, 0, 0⟩ [0x01, 0x02, 0x03] := by
  obtain ⟨hfit, hrefused⟩ : (RequestsFit 30 ⟨areaDB, 1, 0, 0⟩ [0x01, 0x02, 0x03] ↔ WriteFits 30 3) ∧
      (NeverRefused 30 ⟨areaDB, 1, 0, 0⟩ [0x01, 0x02, 0x03] ↔ WriteFits 30 3) :=
    write_requests_fit_iff (by decide) rfl rfl
  have hfits : WriteFits 30 3 := .inr ⟨rfl, by decide⟩
  exact ⟨hfit.mpr hfits, hrefused.mpr hfits⟩

/-- With a PDU size of 241, 213 bytes are one chunk, whose request has 242 bytes with its padding. -/
theorem write_odd_chunk_refused :
    validateAddress ⟨areaDB, 1, 0, 0⟩ = .ok () ∧ validateRangeEnd 0 213 = .ok () ∧
      (writeArea calmNet ⟨areaDB, 1, 0, 0⟩ (List.replicate 213 0xAA) (⟨true, 241, 0, 0⟩, ())).1 =
        .fail (.wrap "request size 242 exceeds negotiated PDU size 241: request exceeds negotiated PDU size"
          (.sentinel .requestExceedsPDU)) := by
  decide +kernel

end S7Comm
