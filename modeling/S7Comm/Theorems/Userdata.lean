import S7Comm.Client.Userdata
import S7Comm.Theorems.Correlation
import S7Comm.Theorems.ParserBounds

/-! Answers of several packets. A user data call is a conversation: the client asks for a packet, and again while the
    packet it got says that more data follows. -/

namespace S7Comm
open Go

/-! ### Requests on the record -/

/-- The call hands at most `n` requests to the connection, whatever it ends with. -/
def Sends {σ α : Type} (n : Nat) (x : ClientM (σ × List Bytes) α) : Prop :=
  ∀ c w log, ∃ sent, (x (c, (w, log))).2.2.2 = log ++ sent ∧ sent.length ≤ n

section Sends
variable {σ α β : Type} {net : Net σ}

theorem Sends.bind {m n : Nat} {x : ClientM (σ × List Bytes) α} {f : α → ClientM (σ × List Bytes) β}
    (hx : Sends m x) (hf : ∀ a, Sends n (f a)) : Sends (m + n) (x >>= f) := by
  intro c w log
  obtain ⟨sent, hlog, hlen⟩ := hx c w log
  rw [Eff.bind_apply]
  rcases h : x (c, (w, log)) with ⟨a | e | _, c₁, w₁, log₁⟩
  · rw [h] at hlog
    obtain ⟨later, hlog', hlen'⟩ := hf a c₁ w₁ log₁
    refine ⟨sent ++ later, ?_, by rw [List.length_append]; omega⟩
    rw [hlog', show log₁ = log ++ sent from hlog, List.append_assoc]
  · rw [h] at hlog
    exact ⟨sent, hlog, by omega⟩
  · rw [h] at hlog
    exact ⟨sent, hlog, by omega⟩

theorem sends_lift (x : Res α) : Sends (σ := σ) 0 (liftM x) := fun _ _ log => ⟨[], (List.append_nil log).symm, Nat.le_refl 0⟩

theorem sends_fail (n : Nat) (e : GoError) : Sends (σ := σ) (α := α) n (Eff.fail e) :=
  fun _ _ log => ⟨[], (List.append_nil log).symm, Nat.zero_le n⟩

theorem sends_pure (n : Nat) (a : α) : Sends (σ := σ) n (pure a) :=
  fun _ _ log => ⟨[], (List.append_nil log).symm, Nat.zero_le n⟩

theorem sends_nextPDURef : Sends (σ := σ) 0 nextPDURef := fun _ _ log => ⟨[], (List.append_nil log).symm, Nat.le_refl 0⟩

theorem sends_writeTSDU (req : Bytes) : Sends 1 (netErr (net.recorded.writeTSDU req)) := by
  intro c w log
  refine ⟨[req], ?_, Nat.le_refl 1⟩
  rcases h : net.writeTSDU req w with ⟨_ | err, w'⟩ <;> simp [netErr, Net.recorded, h]

theorem sends_ctxErr : Sends 0 (netErr net.recorded.ctxErr) := by
  intro c w log
  refine ⟨[], ?_, Nat.le_refl 0⟩
  rcases h : net.ctxErr w with ⟨_ | err, w'⟩ <;> simp [netErr, Net.recorded, h]

theorem sends_readTSDU : Sends 0 (netVal net.recorded.readTSDU) := by
  intro c w log
  refine ⟨[], ?_, Nat.le_refl 0⟩
  rcases h : net.readTSDU w with ⟨_ | err, w'⟩ <;> simp [netVal, Net.recorded, h]

theorem sends_sendReceive (req : Bytes) (ref : UInt16) : Sends 1 (sendReceive net.recorded req ref) := by
  have hget : Sends (σ := σ) 0 Eff.get := fun _ _ log => ⟨[], (List.append_nil log).symm, Nat.le_refl 0⟩
  unfold sendReceive
  refine hget.bind (n := 1) fun p => ?_
  obtain ⟨c, w⟩ := p
  dsimp only
  split
  · exact sends_fail 1 _
  split
  · exact sends_fail 1 _
  · exact (sends_writeTSDU req).bind fun _ => sends_ctxErr.bind fun _ => sends_readTSDU.bind fun _ => sends_lift _

theorem sends_userdataPacket (what : String) (req : Bytes) (ref : UInt16) :
    Sends 1 (userdataPacket net.recorded what req ref) :=
  (sends_sendReceive req ref).bind fun _ => (sends_lift _).bind fun _ => (sends_lift _).bind fun _ => sends_pure 0 _

theorem sends_followUps (group subfunc : UInt8) (left : Nat) (up : UserdataParam) (payload : Bytes) :
    Sends left (followUps net.recorded group subfunc left up payload) := by
  induction left generalizing up payload with
  | zero =>
    unfold followUps
    split
    · exact sends_fail 0 _
    · exact sends_pure 0 _
  | succ left ih =>
    unfold followUps
    split
    · have hpacket : ∀ req ref, Sends 1 (userdataPacket net.recorded "user data follow-up" req ref) :=
        sends_userdataPacket "user data follow-up"
      have h := sends_nextPDURef.bind fun ref =>
        (hpacket (encodeUserdataFollowUp ref group subfunc up.sequence) ref).bind fun p => ih p.2.1 (payload ++ p.2.2)
      rw [Nat.zero_add, Nat.add_comm] at h
      exact h
    · exact sends_pure _ _

end Sends

/-! ### Conversations -/

/-- A packet that was asked for and accepted. -/
structure Packet where
  req : Bytes
  ref : UInt16
  /-- The data section. -/
  data : Bytes
  up : UserdataParam
  payload : Bytes

section Conversation
variable {σ : Type} {net : Net σ} {group subfunc : UInt8}

/-- The exchange takes the client from `st` to `st'`, and every stage accepts the answer. -/
def Accepts (net : Net σ) (a : Packet) (st st' : Client × σ) : Prop :=
  ∃ param, sendReceive net a.req a.ref st = (.ok (param, a.data), st') ∧ parseUserdataParam param = .ok a.up ∧
    parseUserdataData a.data = .ok a.payload

/-- The packets after one with the parameters `up`: each is asked for with the next reference and with the sequence
    number of the packet before it, and only the last says that nothing follows. -/
def Followed (net : Net σ) (group subfunc : UInt8) : UserdataParam → List Packet → Client × σ → Client × σ → Prop
  | up, [], st, st' => up.more = false ∧ st' = st
  | up, a :: as, (c, w), st' =>
    up.more = true ∧ a.ref = (nextPDURefFrom c.pduRef).1 ∧
      a.req = encodeUserdataFollowUp a.ref group subfunc up.sequence ∧
      ∃ st₁, Accepts net a ({ c with pduRef := (nextPDURefFrom c.pduRef).2 }, w) st₁ ∧
        Followed net group subfunc a.up as st₁ st'

/-- A first packet `a` with its request, and the packets that follow it. -/
def Conversation (net : Net σ) (group subfunc : UInt8) (req : Bytes) (ref : UInt16) (st : Client × σ) (a : Packet)
    (as : List Packet) (st' : Client × σ) : Prop :=
  a.req = req ∧ a.ref = ref ∧ ∃ st₁, Accepts net a st st₁ ∧ Followed net group subfunc a.up as st₁ st'

theorem userdataPacket_eq_ok {what : String} {req : Bytes} {ref : UInt16} {st st' : Client × σ} {data payload : Bytes}
    {up : UserdataParam} :
    userdataPacket net what req ref st = (.ok (data, up, payload), st') ↔
      Accepts net ⟨req, ref, data, up, payload⟩ st st' := by
  constructor
  · intro h
    unfold userdataPacket at h
    obtain ⟨⟨param, data'⟩, st₁, hsend, h⟩ := Eff.bind_eq_ok.mp h
    obtain ⟨up', st₂, hup, h⟩ := Eff.bind_eq_ok.mp h
    obtain ⟨payload', st₃, hdata, h⟩ := Eff.bind_eq_ok.mp h
    obtain ⟨hparam, rfl⟩ := Prod.mk.inj hup
    obtain ⟨hpayload, rfl⟩ := Prod.mk.inj hdata
    obtain ⟨hvals, rfl⟩ := Prod.mk.inj h
    cases hvals
    exact ⟨param, hsend, asProtocolFailure_eq_ok.mp hparam, hpayload⟩
  · rintro ⟨param, hsend, hparam, hdata⟩
    unfold userdataPacket
    rw [Eff.bind_ok hsend]
    dsimp only
    rw [hparam, hdata]
    rfl

theorem followed_of_last {up : UserdataParam} (hlast : up.more = false) {as : List Packet} {st st' : Client × σ} :
    Followed net group subfunc up as st st' ↔ as = [] ∧ st' = st := by
  cases as with
  | nil => simp [Followed, hlast]
  | cons a as => simp [Followed, hlast]

theorem followUps_last {up : UserdataParam} (hlast : up.more = false) (left : Nat) (payload : Bytes) :
    followUps net group subfunc left up payload = pure payload := by
  unfold followUps
  rw [hlast, if_neg Bool.false_ne_true]

theorem followUps_more {up : UserdataParam} (hmore : up.more = true) (left : Nat) (payload : Bytes) (c : Client) (w : σ) :
    followUps net group subfunc (left + 1) up payload (c, w) =
      (userdataPacket net "user data follow-up"
          (encodeUserdataFollowUp (nextPDURefFrom c.pduRef).1 group subfunc up.sequence) (nextPDURefFrom c.pduRef).1 >>=
        fun p => followUps net group subfunc left p.2.1 (payload ++ p.2.2))
          ({ c with pduRef := (nextPDURefFrom c.pduRef).2 }, w) := by
  rw [followUps, if_pos hmore]
  rfl

theorem followUps_last_eq_ok {up : UserdataParam} (hlast : up.more = false) {left : Nat} {payload out : Bytes}
    {st st' : Client × σ} :
    followUps net group subfunc left up payload st = (.ok out, st') ↔
      ∃ as, Followed net group subfunc up as st st' ∧ as.length ≤ left ∧ out = payload ++ as.flatMap Packet.payload := by
  rw [followUps_last hlast]
  simp only [followed_of_last hlast]
  constructor
  · rintro ⟨⟩
    exact ⟨[], ⟨rfl, rfl⟩, Nat.zero_le left, (List.append_nil _).symm⟩
  · rintro ⟨as, ⟨rfl, rfl⟩, -, rfl⟩
    simp

/-- The loop returns exactly what a conversation of at most `left` further packets gives. -/
theorem followUps_eq_ok {left : Nat} {up : UserdataParam} {payload out : Bytes} {st st' : Client × σ} :
    followUps net group subfunc left up payload st = (.ok out, st') ↔
      ∃ as, Followed net group subfunc up as st st' ∧ as.length ≤ left ∧ out = payload ++ as.flatMap Packet.payload := by
  induction left generalizing up payload st with
  | zero =>
    cases hmore : up.more with
    | false => exact followUps_last_eq_ok hmore
    | true =>
      rw [followUps, if_pos hmore]
      constructor
      · rintro ⟨⟩
      · rintro ⟨as, hfollow, hlen, -⟩
        obtain rfl := List.length_eq_zero_iff.mp (Nat.le_zero.mp hlen)
        rw [Followed, hmore] at hfollow
        cases hfollow.1
  | succ left ih =>
    cases hmore : up.more with
    | false => exact followUps_last_eq_ok hmore
    | true =>
      obtain ⟨c, w⟩ := st
      rw [followUps_more hmore]
      constructor
      · intro h
        obtain ⟨⟨data, up', more⟩, st₁, hpacket, h⟩ := Eff.bind_eq_ok.mp h
        obtain ⟨as, hfollow, hlen, rfl⟩ := ih.mp h
        exact ⟨⟨_, _, data, up', more⟩ :: as, ⟨hmore, rfl, rfl, st₁, userdataPacket_eq_ok.mp hpacket, hfollow⟩,
          Nat.succ_le_succ hlen, by simp⟩
      · rintro ⟨_ | ⟨⟨req, ref, data, up', more⟩, as⟩, hfollow, hlen, rfl⟩
        · rw [Followed, hmore] at hfollow
          cases hfollow.1
        · obtain ⟨-, hr, hq, st₁, haccept, hfollow⟩ := hfollow
          dsimp only at hr hq
          subst hr hq
          rw [Eff.bind_ok (userdataPacket_eq_ok.mpr haccept)]
          exact ih.mpr ⟨as, hfollow, Nat.le_of_succ_le_succ hlen, by simp⟩

theorem userdata_eq_ok {req first payload : Bytes} {ref : UInt16} {st st' : Client × σ} :
    userdata net group subfunc req ref st = (.ok (first, payload), st') ↔
      ∃ a as, Conversation net group subfunc req ref st a as st' ∧ as.length ≤ maxUserdataFollowUps ∧ first = a.data ∧
        payload = (a :: as).flatMap Packet.payload := by
  unfold userdata
  constructor
  · intro h
    obtain ⟨⟨data, up, payload₀⟩, st₁, hpacket, h⟩ := Eff.bind_eq_ok.mp h
    obtain ⟨out, st₂, hloop, h⟩ := Eff.bind_eq_ok.mp h
    obtain ⟨as, hfollow, hlen, rfl⟩ := followUps_eq_ok.mp hloop
    cases h
    exact ⟨⟨req, ref, _, up, payload₀⟩, as, ⟨rfl, rfl, st₁, userdataPacket_eq_ok.mp hpacket, hfollow⟩, hlen, rfl, rfl⟩
  · rintro ⟨⟨req, ref, data, up, payload₀⟩, as, ⟨rfl, rfl, st₁, haccept, hfollow⟩, hlen, rfl, rfl⟩
    rw [Eff.bind_ok (userdataPacket_eq_ok.mpr haccept)]
    dsimp only
    rw [Eff.bind_ok (followUps_eq_ok.mpr ⟨as, hfollow, hlen, rfl⟩)]
    rfl

/-! ### The packets of a conversation -/

/-- An exchange leaves the client as it was. -/
theorem Accepts.client {a : Packet} {c : Client} {w : σ} {st' : Client × σ} (h : Accepts net a (c, w) st') :
    ∃ w', st' = (c, w') := by
  obtain ⟨param, hsend, -⟩ := h
  obtain ⟨c', w'⟩ := st'
  obtain ⟨-, -, -, -, -, -, -, rfl⟩ := sendReceive_ok hsend
  exact ⟨w', rfl⟩

/-- More data follows every packet but the last. -/
theorem Followed.more_iff {up : UserdataParam} {as : List Packet} {st st' : Client × σ}
    (h : Followed net group subfunc up as st st') {i : Nat} {prev : UserdataParam}
    (hprev : (up :: as.map Packet.up)[i]? = some prev) : prev.more = true ↔ i < as.length := by
  induction as generalizing up st i with
  | nil =>
    cases i with
    | zero =>
      cases hprev
      simp [h.1]
    | succ i => simp at hprev
  | cons a as ih =>
    obtain ⟨hmore, -, -, st₁, -, hfollow⟩ := h
    cases i with
    | zero =>
      cases hprev
      simp [hmore]
    | succ i => simpa using ih hfollow hprev

/-- A follow-up is sent with the next reference of the client and the sequence number of the packet before. -/
theorem Followed.request {up : UserdataParam} {as : List Packet} {c : Client} {w : σ} {st' : Client × σ}
    (h : Followed net group subfunc up as (c, w) st') {i : Nat} {prev : UserdataParam} {q : Packet}
    (hprev : (up :: as.map Packet.up)[i]? = some prev) (hq : as[i]? = some q) :
    q.ref = requestRefs c.pduRef i ∧ q.req = encodeUserdataFollowUp q.ref group subfunc prev.sequence := by
  induction as generalizing up c w i with
  | nil => simp at hq
  | cons a as ih =>
    obtain ⟨-, href, hreq, st₁, haccept, hfollow⟩ := h
    cases i with
    | zero =>
      cases hprev
      cases hq
      exact ⟨href, hreq⟩
    | succ i =>
      obtain ⟨w', rfl⟩ := haccept.client
      exact ih hfollow hprev hq

end Conversation

/-! ### Follow-up requests -/

theorem parseUserdataParam_followUpParam (group subfunc seq : UInt8) :
    parseUserdataParam (followUpParam group subfunc seq) = .ok ⟨group &&& 0x0F, subfunc, seq, false, 0⟩ := by
  have hgroup : (userdataTypeRequest ||| (group &&& 0x0F)) &&& 0x0F = group &&& 0x0F := by
    apply UInt8.toNat_inj.mp
    rw [UInt8.toNat_and, UInt8.toNat_or, UInt8.toNat_and, Nat.and_or_distrib_right, Nat.and_assoc, Nat.and_self]
    exact Nat.zero_or _
  unfold parseUserdataParam followUpParam
  simp [hgroup]

/-- A follow-up carries its reference, and the group, the subfunction and the sequence number it was made of; a group
    has four bits. -/
theorem encodeUserdataFollowUp_carries (ref : UInt16) (group subfunc seq : UInt8) :
    ∃ header rest, parseS7Header (encodeUserdataFollowUp ref group subfunc seq) = .ok (header, rest) ∧
      header.pduRef = ref ∧
      parseUserdataParam (rest.take header.paramLength.toNat) = .ok ⟨group &&& 0x0F, subfunc, seq, false, 0⟩ := by
  have hmsg : encodeUserdataFollowUp ref group subfunc seq =
      message rosctrUserdata ref (followUpParam group subfunc seq) [retCodeNotAvailable, 0x00, 0x00, 0x00] := by
    unfold encodeUserdataFollowUp
    rw [encodeMessage_eq (by simp [followUpParam]) (by simp)]
    rfl
  refine ⟨_, _, by rw [hmsg]; exact parseS7Header_message (by decide) (by simp [followUpParam]) (by simp), rfl, ?_⟩
  exact parseUserdataParam_followUpParam group subfunc seq

/-! ### Panics -/

section Panics
variable {σ : Type} {net : Net σ} {group subfunc : UInt8}

/-- Some follow-up of the loop gets an answer with long sections, after packets that were accepted. -/
def LongFollowUp (net : Net σ) (group subfunc : UInt8) : Nat → UserdataParam → Client × σ → Prop
  | 0, _, _ => False
  | left + 1, up, (c, w) =>
    let ref := (nextPDURefFrom c.pduRef).1
    let req := encodeUserdataFollowUp ref group subfunc up.sequence
    let st := ({ c with pduRef := (nextPDURefFrom c.pduRef).2 }, w)
    up.more = true ∧ (LongAnswer net req ref st ∨ ∃ data up' payload st',
      Accepts net ⟨req, ref, data, up', payload⟩ st st' ∧ LongFollowUp net group subfunc left up' st')

/-- Some request of the call gets an answer with long sections, after packets that were accepted. -/
def LongCall (net : Net σ) (group subfunc : UInt8) (req : Bytes) (ref : UInt16) (st : Client × σ) : Prop :=
  LongAnswer net req ref st ∨ ∃ data up payload st', Accepts net ⟨req, ref, data, up, payload⟩ st st' ∧
    LongFollowUp net group subfunc maxUserdataFollowUps up st'

theorem userdataPacket_eq_panic {what : String} {req : Bytes} {ref : UInt16} {st : Client × σ} :
    (userdataPacket net what req ref st).1 = .panic ↔ LongAnswer net req ref st := by
  have hparam : ∀ param, asProtocolFailure what (parseUserdataParam param) ≠ .panic := by
    intro param
    have h := parseUserdataParam_ne_panic param
    rcases hp : parseUserdataParam param with _ | _ | _
    · simp [asProtocolFailure]
    · simp [asProtocolFailure]
    · exact absurd hp h
  unfold userdataPacket
  rw [Eff.bind_eq_panic, sendReceive_eq_panic]
  refine ⟨fun h => h.resolve_right ?_, .inl⟩
  rintro ⟨⟨param, data⟩, st₁, -, h⟩
  rcases Eff.bind_eq_panic.mp h with h | ⟨up, st₂, -, h⟩
  · exact hparam param h
  rcases Eff.bind_eq_panic.mp h with h | ⟨payload, st₃, -, h⟩
  · exact parseUserdataData_ne_panic data h
  · cases h

/-- By induction on the follow-ups that are left: the next one panics, or one after it. -/
theorem followUps_eq_panic {left : Nat} {up : UserdataParam} {payload : Bytes} {st : Client × σ} :
    (followUps net group subfunc left up payload st).1 = .panic ↔ LongFollowUp net group subfunc left up st := by
  induction left generalizing up payload st with
  | zero =>
    unfold followUps
    refine ⟨fun h => ?_, False.elim⟩
    split at h <;> cases h
  | succ left ih =>
    obtain ⟨c, w⟩ := st
    cases hmore : up.more with
    | false =>
      rw [followUps_last hmore]
      refine ⟨nofun, fun ⟨hnext, _⟩ => ?_⟩
      rw [hmore] at hnext
      cases hnext
    | true =>
      rw [followUps_more hmore, Eff.bind_eq_panic, userdataPacket_eq_panic]
      constructor
      · rintro (h | ⟨⟨data, up', payload'⟩, st', hpacket, h⟩)
        · exact ⟨hmore, .inl h⟩
        · exact ⟨hmore, .inr ⟨data, up', payload', st', userdataPacket_eq_ok.mp hpacket, ih.mp h⟩⟩
      · rintro ⟨-, h | ⟨data, up', payload', st', haccept, h⟩⟩
        · exact .inl h
        · exact .inr ⟨_, st', userdataPacket_eq_ok.mpr haccept, ih.mpr h⟩

theorem userdata_eq_panic {req : Bytes} {ref : UInt16} {st : Client × σ} :
    (userdata net group subfunc req ref st).1 = .panic ↔ LongCall net group subfunc req ref st := by
  unfold userdata
  rw [Eff.bind_eq_panic, userdataPacket_eq_panic]
  constructor
  · rintro (h | ⟨⟨data, up, payload⟩, st', hpacket, h⟩)
    · exact .inl h
    rcases Eff.bind_eq_panic.mp h with h | ⟨out, st₁, -, h⟩
    · exact .inr ⟨data, up, payload, st', userdataPacket_eq_ok.mp hpacket, followUps_eq_panic.mp h⟩
    · cases h
  · rintro (h | ⟨data, up, payload, st', haccept, h⟩)
    · exact .inl h
    · exact .inr ⟨_, st', userdataPacket_eq_ok.mpr haccept, Eff.bind_eq_panic.mpr (.inl (followUps_eq_panic.mpr h))⟩

/-- A TSDU of at most 65535 bytes has no long sections. -/
theorem not_longAnswer (hread : ∀ w pdu, (net.readTSDU w).1 = .ok pdu → pdu.length ≤ 65535) (req : Bytes) (ref : UInt16)
    (st : Client × σ) : ¬LongAnswer net req ref st := by
  rintro ⟨-, -, w₁, w₂, w₃, pdu, -, -, hpdu, hlong⟩
  exact responseSections_ne_panic (hread w₂ pdu (by rw [hpdu])) ref (responseSections_eq_panic.mpr hlong)

theorem not_longFollowUp (hread : ∀ w pdu, (net.readTSDU w).1 = .ok pdu → pdu.length ≤ 65535) (left : Nat)
    (up : UserdataParam) (st : Client × σ) : ¬LongFollowUp net group subfunc left up st := by
  induction left generalizing up st with
  | zero => exact id
  | succ left ih =>
    rintro ⟨-, h | ⟨data, up', payload, st', -, h⟩⟩
    · exact not_longAnswer hread _ _ _ h
    · exact ih up' st' h

theorem not_longCall (hread : ∀ w pdu, (net.readTSDU w).1 = .ok pdu → pdu.length ≤ 65535) (req : Bytes) (ref : UInt16)
    (st : Client × σ) : ¬LongCall net group subfunc req ref st := by
  rintro (h | ⟨data, up, payload, st', -, h⟩)
  · exact not_longAnswer hread req ref st h
  · exact not_longFollowUp hread _ up st' h

end Panics

/-! ### Assembly -/

section Assembly
variable {σ : Type} (net : Net σ) (group subfunc : UInt8) (req : Bytes) (ref : UInt16)

/-- What a follow-up carries: the group and the subfunction, the sequence number of the packet before it, and a
    reference that is not zero and not used before in the call. -/
structure FollowUp (c : Client) (as : List Packet) (i : Nat) (before q : Packet) : Prop where
  ref_ne_zero : q.ref ≠ 0
  ref_eq : q.ref = requestRefs c.pduRef i
  fresh : ∀ (j : Nat) r, as[j]? = some r → r.ref = q.ref → j = i
  fresh_first : ∀ n, nextPDURefFrom n = (ref, c.pduRef) → q.ref ≠ ref
  carries : ∃ header rest, parseS7Header q.req = .ok (header, rest) ∧ header.pduRef = q.ref ∧
    parseUserdataParam (rest.take header.paramLength.toNat) =
      .ok ⟨group &&& 0x0F, subfunc, before.up.sequence, false, 0⟩

/-- The call assembles the answer: it hands at most 257 requests to the connection and returns, it succeeds exactly when
    it can hold a conversation of at most 256 follow-ups, and the payload is that of the packets in order. -/
structure Assembled (c : Client) (w : σ) : Prop where
  sends : ∀ log, ∃ sent, (userdata net.recorded group subfunc req ref (c, (w, log))).2.2.2 = log ++ sent ∧
    sent.length ≤ 257
  returns : (userdata net group subfunc req ref (c, w)).1 ≠ .panic
  success : ∀ first payload st', userdata net group subfunc req ref (c, w) = (.ok (first, payload), st') ↔
    ∃ a as, Conversation net group subfunc req ref (c, w) a as st' ∧ as.length ≤ 256 ∧ first = a.data ∧
      payload = (a :: as).flatMap Packet.payload
  more : ∀ a as st', Conversation net group subfunc req ref (c, w) a as st' → as.length ≤ 256 →
    ∀ (i : Nat) p, (a :: as)[i]? = some p → (p.up.more = true ↔ i < as.length)
  followUp : ∀ a as st', Conversation net group subfunc req ref (c, w) a as st' → as.length ≤ 256 →
    ∀ (i : Nat) p q, (a :: as)[i]? = some p → as[i]? = some q → FollowUp group subfunc ref c as i p q

variable {net group subfunc req ref}

theorem packet_up {a : Packet} {as : List Packet} {i : Nat} {p : Packet} (h : (a :: as)[i]? = some p) :
    (a.up :: as.map Packet.up)[i]? = some p.up := by
  rw [← List.map_cons, List.getElem?_map, h]
  rfl

theorem Conversation.more {c : Client} {w : σ} {a : Packet} {as : List Packet} {st' : Client × σ}
    (h : Conversation net group subfunc req ref (c, w) a as st') (i : Nat) (p : Packet) (hp : (a :: as)[i]? = some p) :
    p.up.more = true ↔ i < as.length := by
  obtain ⟨-, -, st₁, -, hfollow⟩ := h
  exact hfollow.more_iff (packet_up hp)

theorem Conversation.followUp {c : Client} {w : σ} {a : Packet} {as : List Packet} {st' : Client × σ}
    (h : Conversation net group subfunc req ref (c, w) a as st') (hlen : as.length ≤ 256) (i : Nat) (p q : Packet)
    (hp : (a :: as)[i]? = some p) (hq : as[i]? = some q) : FollowUp group subfunc ref c as i p q := by
  obtain ⟨-, -, st₁, haccept, hfollow⟩ := h
  obtain ⟨w₁, rfl⟩ := haccept.client
  obtain ⟨href, hreq⟩ := hfollow.request (packet_up hp) hq
  have hlt : ∀ (j : Nat) r, as[j]? = some r → j < as.length := by
    intro j r hr
    obtain ⟨hj, -⟩ := List.getElem?_eq_some_iff.mp hr
    exact hj
  have hi := hlt i q hq
  refine ⟨by rw [href]; exact requestRefs_ne_zero _ i, href, ?_, ?_, ?_⟩
  · intro j r hr heq
    have hj := hlt j r hr
    obtain ⟨p', hp'⟩ : ∃ p', (a :: as)[j]? = some p' :=
      ⟨_, List.getElem?_eq_getElem (by rw [List.length_cons]; omega)⟩
    obtain ⟨href', -⟩ := hfollow.request (packet_up hp') hr
    exact requestRefs_injective (by omega) (by omega) (href' ▸ href ▸ heq)
  · intro n hn heq
    have hfirst : requestRefs n 0 = ref := by rw [requestRefs, hn]
    have hlater : requestRefs n (i + 1) = q.ref := by rw [requestRefs, hn, href]
    have h := requestRefs_injective (by omega) (by omega) (hlater.trans (heq.trans hfirst.symm))
    omega
  · rw [hreq]
    exact encodeUserdataFollowUp_carries q.ref group subfunc p.up.sequence

end Assembly

/-- Assembly of an answer of several packets, against any peer: the call does all of it, unless one of the answers that it
    reads has sections that together are longer than 65535 bytes. -/
theorem userdata_assembled_iff {σ : Type} (net : Net σ) (group subfunc : UInt8) (req : Bytes) (ref : UInt16) (c : Client)
    (w : σ) : Assembled net group subfunc req ref c w ↔ ¬LongCall net group subfunc req ref (c, w) := by
  constructor
  · intro h hlong
    exact h.returns (userdata_eq_panic.mpr hlong)
  · intro hlong
    refine ⟨?_, fun h => hlong (userdata_eq_panic.mp h), fun _ _ _ => userdata_eq_ok, ?_, ?_⟩
    · exact ((sends_userdataPacket _ req ref).bind fun p =>
        (sends_followUps group subfunc maxUserdataFollowUps p.2.1 p.2.2).bind fun _ => sends_pure 0 _) c w
    · exact fun a as st' h _ => h.more
    · exact fun a as st' h hlen => h.followUp hlen

/-- A peer that echoes the reference of the request and answers in packets of one byte, as many as its counter says
    after the next one. -/
def countdownNet : Net (Nat × Bytes) where
  ctxErr w := (none, w)
  wait w := (none, w)
  writeTSDU req := fun (n, _) => (none, (n, req))
  readTSDU := fun (n, req) =>
    (.ok (message rosctrUserdata (be16 (req.getD 4 0) (req.getD 5 0))
      [0x00, 0x01, 0x12, 0x08, userdataRes, 0x84, userdataSZL, 7, 0x00, if n = 0 then 0x00 else 0x01, 0x00, 0x00]
      [retCodeSuccess, 0x09, 0x00, 0x01, UInt8.ofNat n]), (n - 1, req))

/-- Three packets, the second and the third asked for after references 1 and 2. -/
theorem userdata_assembled_three :
    Assembled countdownNet userdataGroupCPU userdataSZL (encodeSZLRequest 1 0x0011 0) 1 ⟨true, 240, 1, 0⟩ (2, []) ∧
      ∃ a as st', Conversation countdownNet userdataGroupCPU userdataSZL (encodeSZLRequest 1 0x0011 0) 1
        (⟨true, 240, 1, 0⟩, (2, [])) a as st' ∧ (a :: as).flatMap Packet.payload = [2, 1, 0] := by
  have hshort : ∀ w pdu, (countdownNet.readTSDU w).1 = .ok pdu → pdu.length ≤ 65535 := by
    rintro ⟨n, req⟩ pdu hpdu
    cases hpdu
    simp
  have hall := (userdata_assembled_iff countdownNet userdataGroupCPU userdataSZL (encodeSZLRequest 1 0x0011 0) 1
    ⟨true, 240, 1, 0⟩ (2, [])).mpr (not_longCall hshort _ _ _)
  have hrun : userdata countdownNet userdataGroupCPU userdataSZL (encodeSZLRequest 1 0x0011 0) 1
      (⟨true, 240, 1, 0⟩, (2, [])) =
        (.ok ([0xFF, 9, 0, 1, 2], [2, 1, 0]), (⟨true, 240, 3, 0⟩, (0, encodeUserdataFollowUp 3 4 1 7))) := by
    decide +kernel
  obtain ⟨a, as, hconv, -, -, hpayload⟩ := (hall.success _ _ _).mp hrun
  exact ⟨hall, a, as, _, hconv, hpayload.symm⟩

theorem longSections_message {ref : UInt16} {param data : Bytes} (hp : param.length ≤ 65535) (hd : data.length ≤ 65535)
    (h : 65536 ≤ param.length + data.length) : LongSections (message rosctrUserdata ref param data) ref := by
  refine ⟨_, _, parseS7Header_message (by decide) hp hd, .inr rfl, rfl, rfl, ?_, ?_⟩
  · rw [uint16_toNat_ofNat (by omega), uint16_toNat_ofNat (by omega), List.length_append]
  · rw [uint16_toNat_ofNat (by omega), uint16_toNat_ofNat (by omega)]
    exact h

/-- A peer that answers every request with two sections of 32768 bytes. -/
def longNet : Net Unit where
  ctxErr w := (none, w)
  wait w := (none, w)
  writeTSDU _ w := (none, w)
  readTSDU w := (.ok (message rosctrUserdata 1 (List.replicate 32768 0) (List.replicate 32768 0)), w)

/-- The lengths of the sections add up to 65536, which is 0 as a 16-bit sum, and the call panics. -/
theorem userdata_long_answer_panics :
    (userdata longNet userdataGroupCPU userdataSZL (encodeSZLRequest 1 0x0011 0) 1 (⟨true, 240, 1, 0⟩, ())).1 = .panic ∧
      ¬Assembled longNet userdataGroupCPU userdataSZL (encodeSZLRequest 1 0x0011 0) 1 ⟨true, 240, 1, 0⟩ () := by
  have hlen : (List.replicate 32768 0 : Bytes).length = 32768 := List.length_replicate
  have hlong : LongSections (message rosctrUserdata 1 (List.replicate 32768 0) (List.replicate 32768 0)) 1 :=
    longSections_message (by omega) (by omega) (by omega)
  have hpanic : (userdata longNet userdataGroupCPU userdataSZL (encodeSZLRequest 1 0x0011 0) 1
      (⟨true, 240, 1, 0⟩, ())).1 = .panic :=
    userdata_eq_panic.mpr (.inl ⟨rfl, by decide, (), (), (), _, rfl, rfl, rfl, hlong⟩)
  exact ⟨hpanic, fun h => h.returns hpanic⟩

end S7Comm
