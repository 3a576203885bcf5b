import S7Comm.Theorems.SendReceive

/-! The parsers of the client stay in bounds: no answer that fits a 16-bit length makes them panic. -/

namespace S7Comm
open Go

/-! ### The sections of an answer -/

theorem ackError_spec {data : Bytes} (h : 10 ≤ data.length) (rosctr : UInt8) :
    (∃ e, ackError data rosctr = .fail e) ∨
      ∃ cls code offset, ackError data rosctr = .ok (cls, code, offset) ∧ offset ≤ data.length := by
  unfold ackError
  split
  · split
    · exact .inl ⟨_, rfl⟩
    · rename_i hlen
      have hlen' : 12 ≤ data.length := Nat.not_lt.mp hlen
      rw [indexAt_of_lt (by omega), indexAt_of_lt (by omega)]
      exact .inr ⟨_, _, _, rfl, hlen'⟩
  · exact .inr ⟨_, _, _, rfl, h⟩

/-- A header is parsed or refused, and what follows it is part of the PDU. -/
theorem parseS7Header_spec (data : Bytes) :
    (∃ e, parseS7Header data = .fail e) ∨
      ∃ header rest, parseS7Header data = .ok (header, rest) ∧ rest.length ≤ data.length := by
  unfold parseS7Header
  split
  · exact .inl ⟨_, rfl⟩
  rename_i hlen
  have hlen' : 10 ≤ data.length := Nat.not_lt.mp hlen
  rw [indexAt_of_lt (by omega), Outcome.ok_bind]
  split
  · exact .inl ⟨_, rfl⟩
  rw [indexAt_of_lt (by omega), wordAt_of_le (by omega), wordAt_of_le (by omega), wordAt_of_le (by omega),
    wordAt_of_le (by omega)]
  simp only [Outcome.ok_bind]
  rcases ackError_spec hlen' data[1] with ⟨e, he⟩ | ⟨cls, code, offset, hack, hle⟩
  · rw [he]
    exact .inl ⟨e, rfl⟩
  · rw [hack, Outcome.ok_bind]
    dsimp only
    rw [sliceOf_of_le hle (Nat.le_refl _), Outcome.ok_bind]
    split
    · exact .inl ⟨_, rfl⟩
    · exact .inr ⟨_, _, rfl, by simp⟩

theorem newS7ErrorWithParam_ne_panic (cls code : UInt8) (param : Bytes) : newS7ErrorWithParam cls code param ≠ .panic := by
  unfold newS7ErrorWithParam paramErrorFromParam
  split
  · simp
  · rw [wordAt_of_le (by omega)]
    simp only [Outcome.ok_bind, Outcome.pure_eq]
    split <;> simp

theorem errorParam_ne_panic (header : S7Header) (rest : Bytes) : errorParam header rest ≠ .panic := by
  unfold errorParam
  dsimp only
  split
  · rename_i hp
    rw [sliceOf_of_le (by omega) hp.2]
    simp
  · simp

/-- An answer to the request, without a header error, whose sections together have more bytes than a 16-bit number
    counts. -/
def LongSections (pdu : Bytes) (ref : UInt16) : Prop :=
  ∃ header rest, parseS7Header pdu = .ok (header, rest) ∧ (ref = 0 ∨ header.pduRef = ref) ∧
    header.errorClass = 0 ∧ header.errorCode = 0 ∧
    header.paramLength.toNat + header.dataLength.toNat ≤ rest.length ∧
    65536 ≤ header.paramLength.toNat + header.dataLength.toNat

/-- The slice of the data section ends at a 16-bit sum: when the sum wraps, it ends before its start. -/
theorem dataSection_eq {header : S7Header} {rest : Bytes}
    (h : header.paramLength.toNat + header.dataLength.toNat ≤ rest.length) :
    sliceOf rest header.paramLength.toNat (header.paramLength + header.dataLength).toNat =
      if header.paramLength.toNat + header.dataLength.toNat < 65536 then
        .ok ((rest.drop header.paramLength.toNat).take header.dataLength.toNat)
      else .panic := by
  have hp := header.paramLength.toNat_lt
  have hd := header.dataLength.toNat_lt
  rw [UInt16.toNat_add]
  split
  · rw [Nat.mod_eq_of_lt (by omega), sliceOf_of_le (by omega) h, Nat.add_sub_cancel_left]
  · unfold sliceOf slice
    rw [if_neg (by omega)]

theorem sections_eq {header : S7Header} {rest : Bytes}
    (h : header.paramLength.toNat + header.dataLength.toNat ≤ rest.length) :
    (sliceOf rest 0 header.paramLength.toNat >>= fun param =>
      sliceOf rest header.paramLength.toNat (header.paramLength + header.dataLength).toNat >>= fun data =>
        (pure (param, data) : Res (Bytes × Bytes))) =
      if header.paramLength.toNat + header.dataLength.toNat < 65536 then
        .ok (rest.take header.paramLength.toNat, (rest.drop header.paramLength.toNat).take header.dataLength.toNat)
      else .panic := by
  rw [sliceOf_of_le (by omega) (by omega), Outcome.ok_bind, dataSection_eq h]
  split <;> rfl

/-! ### Declared sections -/

def headerLength (rosctr : UInt8) : Nat :=
  if rosctr = rosctrAckData ∨ rosctr = rosctrAck then s7HeaderSize + 2 else s7HeaderSize

/-- The sections of a PDU with this header: as many bytes after the header as it declares, and as many after those. -/
def declaredSections (header : S7Header) (pdu : Bytes) : Bytes × Bytes :=
  ((pdu.drop (headerLength header.rosctr)).take header.paramLength.toNat,
    (pdu.drop (headerLength header.rosctr + header.paramLength.toNat)).take header.dataLength.toNat)

theorem ackError_offset {data : Bytes} {rosctr cls code : UInt8} {offset : Nat}
    (h : ackError data rosctr = .ok (cls, code, offset)) : offset = headerLength rosctr := by
  unfold ackError at h
  unfold headerLength
  split at h
  · rename_i hack
    split at h
    · cases h
    · obtain ⟨_, -, h⟩ := Outcome.bind_eq_ok.mp h
      obtain ⟨_, -, h⟩ := Outcome.bind_eq_ok.mp h
      cases h
      rw [if_pos hack]
  · rename_i hplain
    cases h
    rw [if_neg hplain]

/-- What follows an accepted header has the bytes that the header declares. -/
theorem parseS7Header_rest {pdu rest : Bytes} {header : S7Header} (h : parseS7Header pdu = .ok (header, rest)) :
    rest = pdu.drop (headerLength header.rosctr) ∧
      header.paramLength.toNat + header.dataLength.toNat ≤ rest.length := by
  unfold parseS7Header at h
  split at h
  · cases h
  obtain ⟨protocolID, -, h⟩ := Outcome.bind_eq_ok.mp h
  split at h
  · cases h
  obtain ⟨rosctr, -, h⟩ := Outcome.bind_eq_ok.mp h
  obtain ⟨redundancyID, -, h⟩ := Outcome.bind_eq_ok.mp h
  obtain ⟨pduRef, -, h⟩ := Outcome.bind_eq_ok.mp h
  obtain ⟨paramLength, -, h⟩ := Outcome.bind_eq_ok.mp h
  obtain ⟨dataLength, -, h⟩ := Outcome.bind_eq_ok.mp h
  obtain ⟨⟨cls, code, offset⟩, hack, h⟩ := Outcome.bind_eq_ok.mp h
  obtain ⟨tail, htail, h⟩ := Outcome.bind_eq_ok.mp h
  dsimp only at h
  split at h
  · cases h
  · rename_i hfits
    cases h
    obtain ⟨-, -, rfl⟩ := slice_eq_ok.mp htail
    obtain rfl := ackError_offset hack
    exact ⟨List.take_of_length_le (by simp), Nat.not_lt.mp hfits⟩

section Answer
variable {pdu rest : Bytes} {header : S7Header} (hparse : parseS7Header pdu = .ok (header, rest))
include hparse

theorem declaredSections_eq : declaredSections header pdu =
    (rest.take header.paramLength.toNat, (rest.drop header.paramLength.toNat).take header.dataLength.toNat) := by
  rw [declaredSections, (parseS7Header_rest hparse).1, List.drop_drop]

/-- An accepted PDU has the sections that its header declares. -/
theorem length_declaredSections : (declaredSections header pdu).1.length = header.paramLength.toNat ∧
    (declaredSections header pdu).2.length = header.dataLength.toNat := by
  obtain ⟨-, hfits⟩ := parseS7Header_rest hparse
  rw [declaredSections_eq hparse]
  simp only [List.length_take, List.length_drop]
  omega

theorem responseSections_declared {ref : UInt16} (href : ref = 0 ∨ header.pduRef = ref) (hclass : header.errorClass = 0)
    (hcode : header.errorCode = 0) : responseSections pdu ref =
      if header.paramLength.toNat + header.dataLength.toNat < 65536 then .ok (declaredSections header pdu)
      else .panic := by
  obtain ⟨-, hfits⟩ := parseS7Header_rest hparse
  have hmatch : ¬(ref ≠ 0 ∧ header.pduRef ≠ ref) := fun h => href.elim h.1 h.2
  unfold responseSections
  rw [hparse]
  dsimp only
  rw [if_neg hmatch, if_neg (by simp [hclass, hcode]), if_neg (Nat.not_lt.mpr hfits), sections_eq hfits,
    declaredSections_eq hparse]

end Answer

/-- An answer with long sections makes `sendReceive` panic, and no other answer does. -/
theorem responseSections_eq_panic {pdu : Bytes} {ref : UInt16} :
    responseSections pdu ref = .panic ↔ LongSections pdu ref := by
  constructor
  · intro h
    rcases parseS7Header_spec pdu with ⟨e, he⟩ | ⟨header, rest, hparse, -⟩
    · rw [responseSections, he] at h
      cases h
    by_cases href : ref ≠ 0 ∧ header.pduRef ≠ ref
    · rw [responseSections, hparse] at h
      dsimp only at h
      rw [if_pos href] at h
      cases h
    by_cases herr : header.errorClass ≠ 0 ∨ header.errorCode ≠ 0
    · rw [responseSections, hparse] at h
      dsimp only at h
      rw [if_neg href, if_pos herr] at h
      exact absurd h (Outcome.bind_ne_panic (errorParam_ne_panic _ _) fun param _ =>
        Outcome.bind_ne_panic (newS7ErrorWithParam_ne_panic _ _ _) (by simp))
    have href' : ref = 0 ∨ header.pduRef = ref := by
      by_contra hother
      exact href (not_or.mp hother)
    have herr' : header.errorClass = 0 ∧ header.errorCode = 0 := by simpa using herr
    rw [responseSections_declared hparse href' herr'.1 herr'.2] at h
    split at h
    · cases h
    · rename_i hlong
      exact ⟨header, rest, hparse, href', herr'.1, herr'.2, (parseS7Header_rest hparse).2, Nat.not_lt.mp hlong⟩
  · rintro ⟨header, rest, hparse, href, hclass, hcode, -, hlong⟩
    rw [responseSections_declared hparse href hclass hcode, if_neg (Nat.not_lt.mpr hlong)]

/-- An answer of at most 65535 bytes is taken apart or refused. -/
theorem responseSections_ne_panic {pdu : Bytes} (h : pdu.length ≤ 65535) (ref : UInt16) :
    responseSections pdu ref ≠ .panic := by
  intro hpanic
  obtain ⟨header, rest, hparse, -, -, -, hfits, hlong⟩ := responseSections_eq_panic.mp hpanic
  rcases parseS7Header_spec pdu with ⟨e, he⟩ | ⟨header', rest', hparse', hle⟩
  · rw [he] at hparse
    cases hparse
  · rw [hparse'] at hparse
    cases hparse
    omega

/-- The connection delivers an answer with long sections to the request. -/
def LongAnswer {σ : Type} (net : Net σ) (req : Bytes) (ref : UInt16) : Client × σ → Prop
  | (c, w) => c.connected = true ∧ ¬(c.pduSize > 0 ∧ req.length > c.pduSize) ∧
    ∃ w₁ w₂ w₃ pdu, net.writeTSDU req w = (none, w₁) ∧ net.ctxErr w₁ = (none, w₂) ∧ net.readTSDU w₂ = (.ok pdu, w₃) ∧
      LongSections pdu ref

theorem sendReceive_eq_panic {σ : Type} {net : Net σ} {req : Bytes} {ref : UInt16} {st : Client × σ} :
    (sendReceive net req ref st).1 = .panic ↔ LongAnswer net req ref st := by
  obtain ⟨c, w⟩ := st
  constructor
  · intro h
    by_cases hsent : c.connected = true ∧ ¬(c.pduSize > 0 ∧ req.length > c.pduSize)
    swap
    · obtain ⟨err, -, hunsent⟩ : ∃ err, _ ∧ sendReceive net req ref (c, w) = (.fail err, (c, w)) :=
        sendReceive_unsent hsent
      rw [hunsent] at h
      cases h
    obtain ⟨hconn, hfit⟩ := hsent
    rcases hwrite : net.writeTSDU req w with ⟨_ | err, w₁⟩
    swap
    · rw [sendReceive_write_fail hconn hfit hwrite] at h
      cases h
    rcases hctx : net.ctxErr w₁ with ⟨_ | err, w₂⟩
    swap
    · rw [sendReceive_ctx_fail hconn hfit hwrite hctx] at h
      cases h
    rcases hread : net.readTSDU w₂ with ⟨err | pdu, w₃⟩
    · rw [sendReceive_read_fail hconn hfit hwrite hctx hread] at h
      cases h
    · rw [sendReceive_read hconn hfit hwrite hctx hread] at h
      exact ⟨hconn, hfit, w₁, w₂, w₃, pdu, hwrite, hctx, hread, responseSections_eq_panic.mp h⟩
  · rintro ⟨hconn, hfit, w₁, w₂, w₃, pdu, hwrite, hctx, hread, hlong⟩
    rw [sendReceive_read hconn hfit hwrite hctx hread]
    exact responseSections_eq_panic.mpr hlong

/-! ### The items of a Read Var answer -/

theorem normalizeResponseDataLength_ne_panic (transportSize : UInt8) (rawLength : UInt16) :
    normalizeResponseDataLength transportSize rawLength ≠ .panic := by
  unfold normalizeResponseDataLength
  split_ifs <;> simp

theorem skipFill_ne_panic (data : Bytes) (offset next n : Nat) (last : Bool) :
    skipFill data offset next n last ≠ .panic := by
  unfold skipFill
  split_ifs <;> simp

theorem decodeReadResponseItem_ne_panic (data : Bytes) (offset : Nat) (last : Bool) :
    decodeReadResponseItem data offset last ≠ .panic := by
  unfold decodeReadResponseItem
  split
  · simp
  rw [indexAt_of_lt (by omega), indexAt_of_lt (by omega), wordAt_of_le (by omega)]
  simp only [Outcome.ok_bind]
  split
  · split
    · simp
    · refine Outcome.bind_ne_panic (normalizeResponseDataLength_ne_panic _ _) fun n _ => ?_
      split
      · simp
      · exact Outcome.bind_ne_panic (skipFill_ne_panic _ _ _ _ _) (by simp)
  · refine Outcome.bind_ne_panic (normalizeResponseDataLength_ne_panic _ _) fun n _ => ?_
    split
    · simp
    · rw [sliceOf_of_le (by omega) (by omega), Outcome.ok_bind]
      exact Outcome.bind_ne_panic (skipFill_ne_panic _ _ _ _ _) (by simp)

theorem readResponseItems_ne_panic (data : Bytes) (left offset : Nat) : readResponseItems data left offset ≠ .panic := by
  induction left generalizing offset with
  | zero => simp [readResponseItems]
  | succ left ih =>
    unfold readResponseItems
    refine Outcome.bind_ne_panic (decodeReadResponseItem_ne_panic _ _ _) fun item _ => ?_
    exact Outcome.bind_ne_panic (ih item.2) (by simp)

theorem parseReadVarResponse_ne_panic (param data : Bytes) : parseReadVarResponse param data ≠ .panic := by
  unfold parseReadVarResponse
  split
  · simp
  rw [indexAt_of_lt (by omega), Outcome.ok_bind]
  split
  · simp
  · rw [indexAt_of_lt (by omega), Outcome.ok_bind]
    exact readResponseItems_ne_panic _ _ _

end S7Comm
