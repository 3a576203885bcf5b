import S7Comm.Client.Blocks
import S7Comm.Client.SZL
import S7Comm.Lib.Series
import S7Comm.Theorems.PeerReads
import S7Comm.Theorems.Userdata

/-! Errors in the answers to user data calls. A packet can refuse a call in its return code or in the error code of its
    parameter section; the client looks at the first one only. -/

namespace S7Comm
open Go

/-- The calls that make a user data request. -/
inductive UserdataCall where
  | userdata (group subfunc : UInt8) (req : Bytes) (ref : UInt16)
  | readSZL (id index : UInt16)
  | listBlocks (bt : UInt8)
  | blockCounts
  | getBlockInfo (bt : UInt8) (num : Int)
  deriving Repr, DecidableEq

/-- A request, and the client that sends it. -/
structure UserdataRequest where
  group : UInt8
  subfunc : UInt8
  req : Bytes
  ref : UInt16
  client : Client

namespace UserdataCall

/-- The request with the next reference of the client. -/
def numbered (c : Client) (group subfunc : UInt8) (req : UInt16 → Bytes) : UserdataRequest :=
  ⟨group, subfunc, req (nextPDURefFrom c.pduRef).1, (nextPDURefFrom c.pduRef).1,
    { c with pduRef := (nextPDURefFrom c.pduRef).2 }⟩

/-- The first request of the call, if it makes one. -/
def request (c : Client) : UserdataCall → Option UserdataRequest
  | userdata group subfunc req ref => some ⟨group, subfunc, req, ref, c⟩
  | readSZL id index => some (numbered c userdataGroupCPU userdataSZL fun ref => encodeSZLRequest ref id index)
  | listBlocks bt => some (numbered c userdataGroupBlock userdataBlockList fun ref => encodeBlockListRequest ref bt)
  | blockCounts => some (numbered c userdataGroupBlock userdataBlockCount encodeBlockCountRequest)
  | getBlockInfo bt num =>
    if num < 0 ∨ num > maxUploadBlockNumber ∨ !validBlockType bt then none
    else some (numbered c userdataGroupBlock userdataBlockInfo fun ref => encoded (encodeBlockInfoRequest ref bt num))

/-- The call can decode the data section of the first packet and the payload of all packets. -/
def Decodes (first payload : Bytes) : UserdataCall → Prop
  | userdata _ _ _ _ => True
  | readSZL _ _ => (∃ resp, parseSZLResponse first = .ok resp) ∧ 4 ≤ payload.length
  | listBlocks _ => ∃ entries, parseBlockListResponse payload = .ok entries
  | blockCounts => ∃ counts, parseBlockCountResponse payload = .ok counts
  | getBlockInfo _ _ => ∃ info, parseBlockInfoResponse payload = .ok info

section Success
variable {σ : Type} (net : Net σ)

/-- The call returns without an error. -/
def Succeeds (st st' : Client × σ) : UserdataCall → Prop
  | userdata group subfunc req ref => ∃ r, S7Comm.userdata net group subfunc req ref st = (.ok r, st')
  | readSZL id index => ∃ r, S7Comm.readSZL net id index st = (.ok r, st')
  | listBlocks bt => ∃ r, S7Comm.listBlocks net bt st = (.ok r, st')
  | blockCounts => ∃ r, Client.blockCounts net st = (.ok r, st')
  | getBlockInfo bt num => ∃ r, S7Comm.getBlockInfo net bt num st = (.ok (r, none), st')

end Success
end UserdataCall

/-! ### What a call does after its request -/

section Success
variable {σ : Type} {net : Net σ} {c : Client} {w : σ} {st' : Client × σ}

/-- A call that numbers its request and decodes the answer succeeds when both succeed; `mk` gives the results that count
    as a success. -/
theorem numbered_succeeds {α β : Type} (group subfunc : UInt8) (req : UInt16 → Bytes) (decode : Bytes → Bytes → Res α)
    (mk : β → α) :
    (∃ b, (nextPDURef >>= fun ref => userdata net group subfunc (req ref) ref >>= fun p =>
        (liftM (decode p.1 p.2) : ClientM σ α)) (c, w) = (.ok (mk b), st')) ↔
      ∃ q, some (UserdataCall.numbered c group subfunc req) = some q ∧ ∃ first payload,
        userdata net q.group q.subfunc q.req q.ref (q.client, w) = (.ok (first, payload), st') ∧
          ∃ b, decode first payload = .ok (mk b) := by
  have hnext : nextPDURef (c, w) =
      (.ok (nextPDURefFrom c.pduRef).1, (UserdataCall.numbered c group subfunc req).client, w) := rfl
  constructor
  · rintro ⟨b, h⟩
    rw [Eff.bind_ok hnext] at h
    obtain ⟨⟨first, payload⟩, st₁, hcall, hdecode⟩ := Eff.bind_eq_ok.mp h
    obtain ⟨hb, rfl⟩ := Prod.mk.inj hdecode
    exact ⟨_, rfl, first, payload, hcall, b, hb⟩
  · rintro ⟨q, ⟨⟩, first, payload, hcall, b, hb⟩
    refine ⟨b, ?_⟩
    rw [Eff.bind_ok hnext]
    exact Eff.bind_eq_ok.mpr ⟨(first, payload), st', hcall, by rw [Eff.lift_apply, hb]⟩

theorem szlOf_eq_ok {first payload : Bytes} :
    (∃ r, szlOf first payload = .ok r) ↔ (∃ resp, parseSZLResponse first = .ok resp) ∧ 4 ≤ payload.length := by
  unfold szlOf
  constructor
  · rintro ⟨r, h⟩
    obtain ⟨resp, hresp, h⟩ := Outcome.bind_eq_ok.mp h
    obtain ⟨data, hdata, -⟩ := Outcome.bind_eq_ok.mp h
    exact ⟨⟨resp, hresp⟩, (slice_eq_ok.mp hdata).1⟩
  · rintro ⟨⟨resp, hresp⟩, hlen⟩
    rw [hresp, Outcome.ok_bind, sliceOf_of_le hlen (Nat.le_refl _)]
    exact ⟨_, rfl⟩

theorem asBlockFailure_bind_eq_ok {α β : Type} {x : Res α} {f : α → β} :
    (∃ r, (asBlockFailure x >>= fun a => pure (f a)) = .ok r) ↔ ∃ a, x = .ok a := by
  cases x <;> simp [asBlockFailure]

theorem blockInfoOf_eq_ok {bt : UInt8} {num : Int} {payload : Bytes} :
    (∃ r, blockInfoOf bt num payload = .ok (r, none)) ↔ ∃ info, parseBlockInfoResponse payload = .ok info := by
  unfold blockInfoOf
  cases parseBlockInfoResponse payload <;> simp [asBlockFailure, pure]

theorem encodeBlockInfoRequest_fail (ref : UInt16) {bt : UInt8} (num : Int) (h : ¬validBlockType bt = true) :
    ∃ e, encodeBlockInfoRequest ref bt num = .fail e := by
  unfold encodeBlockInfoRequest blockAddress
  rw [if_pos (by simpa using h)]
  exact ⟨_, rfl⟩

theorem encodeBlockInfoRequest_eq (ref : UInt16) {bt : UInt8} {num : Int}
    (hnum : ¬(num < 0 ∨ num > maxUploadBlockNumber)) (hbt : validBlockType bt = true) :
    encodeBlockInfoRequest ref bt num = .ok (encoded (encodeBlockInfoRequest ref bt num)) := by
  unfold encodeBlockInfoRequest blockAddress
  rw [if_neg (by simpa using hbt), if_neg hnum]
  rfl

theorem getBlockInfo_eq {bt : UInt8} {num : Int} (hnum : ¬(num < 0 ∨ num > maxUploadBlockNumber))
    (hbt : validBlockType bt = true) :
    getBlockInfo net bt num = nextPDURef >>= fun ref =>
      userdata net userdataGroupBlock userdataBlockInfo (encoded (encodeBlockInfoRequest ref bt num)) ref >>= fun p =>
        liftM (blockInfoOf bt num p.2) := by
  have hreq (ref : UInt16) :
      asValidation (encodeBlockInfoRequest ref bt num) = .ok (encoded (encodeBlockInfoRequest ref bt num)) :=
    asValidation_eq_ok.mpr (encodeBlockInfoRequest_eq ref hnum hbt)
  unfold getBlockInfo
  rw [if_neg hnum]
  simp only [hreq]
  rfl

theorem getBlockInfo_refused {bt : UInt8} {num : Int} (h : num < 0 ∨ num > maxUploadBlockNumber ∨ !validBlockType bt)
    (st : Client × σ) : ∃ e st', getBlockInfo net bt num st = (.fail e, st') := by
  unfold getBlockInfo
  by_cases hnum : num < 0 ∨ num > maxUploadBlockNumber
  · rw [if_pos hnum]
    exact ⟨_, _, rfl⟩
  · rw [if_neg hnum, Eff.bind_ok (rfl : nextPDURef st = (.ok (nextPDURefFrom st.1.pduRef).1, _))]
    have hbt : ¬validBlockType bt = true := by
      rw [← or_assoc] at h
      simpa using h.resolve_left hnum
    obtain ⟨e, he⟩ := encodeBlockInfoRequest_fail (nextPDURefFrom st.1.pduRef).1 num hbt
    rw [he]
    exact ⟨_, _, rfl⟩

/-- A call succeeds when its user data call does and the answer can be decoded. -/
theorem UserdataCall.succeeds_iff {call : UserdataCall} :
    call.Succeeds net (c, w) st' ↔ ∃ q, call.request c = some q ∧ ∃ first payload,
      S7Comm.userdata net q.group q.subfunc q.req q.ref (q.client, w) = (.ok (first, payload), st') ∧
        call.Decodes first payload := by
  cases call with
  | userdata group subfunc req ref => simp [Succeeds, request, Decodes]
  | readSZL szlID szlIndex =>
    simp only [Decodes, ← szlOf_eq_ok]
    exact numbered_succeeds _ _ (fun ref => encodeSZLRequest ref szlID szlIndex) szlOf id
  | listBlocks bt =>
    have hdecodes (payload : Bytes) : (∃ r, blocksOf bt payload = .ok r) ↔ _ := asBlockFailure_bind_eq_ok
    simp only [Decodes, ← hdecodes]
    exact numbered_succeeds _ _ (fun ref => encodeBlockListRequest ref bt) (fun _ payload => blocksOf bt payload) id
  | blockCounts =>
    have hdecodes (payload : Bytes) : (∃ r, blockCountsOf payload = .ok r) ↔ _ := asBlockFailure_bind_eq_ok
    simp only [Decodes, ← hdecodes]
    exact numbered_succeeds _ _ encodeBlockCountRequest (fun _ payload => blockCountsOf payload) id
  | getBlockInfo bt num =>
    by_cases hrefused : num < 0 ∨ num > maxUploadBlockNumber ∨ !validBlockType bt
    · obtain ⟨e, st₁, he⟩ := getBlockInfo_refused hrefused (c, w)
      simp only [Succeeds, request, if_pos hrefused]
      constructor
      · rintro ⟨r, hr⟩
        rw [he] at hr
        cases hr
      · exact nofun
    · have hnum : ¬(num < 0 ∨ num > maxUploadBlockNumber) := fun h => hrefused (by omega)
      have hbt : validBlockType bt = true := by
        by_contra hbt
        exact hrefused (.inr (.inr (by simpa using hbt)))
      have hdecodes (payload : Bytes) : (∃ r, blockInfoOf bt num payload = .ok (r, none)) ↔ _ := blockInfoOf_eq_ok
      simp only [Succeeds, request, Decodes, if_neg hrefused, getBlockInfo_eq hnum hbt, ← hdecodes]
      exact numbered_succeeds _ _ (fun ref => encoded (encodeBlockInfoRequest ref bt num))
        (fun _ payload => blockInfoOf bt num payload) fun r => (r, none)

end Success

/-! ### Refusals -/

/-- The packet refuses nothing: no error in its parameter section, and the return code of a success. -/
def Packet.Clean (p : Packet) : Prop := p.up.errorCode = 0 ∧ p.data.head? = some retCodeSuccess

section Reported
variable {σ : Type} (net : Net σ) (call : UserdataCall) (c : Client) (w : σ)

/-- No error is reported as a success: if the call succeeds, every packet that it took is clean. -/
def ErrorsReported : Prop :=
  ∀ st', call.Succeeds net (c, w) st' → ∀ q, call.request c = some q → ∀ a as,
    Conversation net q.group q.subfunc q.req q.ref (q.client, w) a as st' → ∀ p ∈ a :: as, p.Clean

/-- The peer answers with packets that the call can decode, and the parameter section of one of them carries an
    error. -/
def CodedAnswer : Prop :=
  ∃ q a as st', call.request c = some q ∧ Conversation net q.group q.subfunc q.req q.ref (q.client, w) a as st' ∧
    as.length ≤ maxUserdataFollowUps ∧ call.Decodes a.data ((a :: as).flatMap Packet.payload) ∧
      ∃ p ∈ a :: as, p.up.errorCode ≠ 0

variable {net call c w}

/-- A section that is accepted: return code, transport size, length, and the payload of this length. -/
theorem parseUserdataData_eq_ok {data payload : Bytes} : parseUserdataData data = .ok payload ↔
    StandsAt data 0 [retCodeSuccess] ∧ ∃ n : UInt16, StandsAt data 2 (putUint16 n ++ payload) ∧
      payload.length = n.toNat := by
  constructor
  · intro h
    unfold parseUserdataData at h
    split at h
    · cases h
    obtain ⟨code, hcode, h⟩ := Outcome.bind_eq_ok.mp h
    split at h
    · cases h
    rename_i hnone
    rw [returnCodeError_eq_none.mp hnone] at hcode
    obtain ⟨n, hn, h⟩ := Outcome.bind_eq_ok.mp h
    dsimp only at h
    split at h
    · cases h
    obtain ⟨hat, hlen⟩ := slice_eq_ok_iff.mp h
    refine ⟨index_eq_ok_iff.mp hcode, n, standsAt_append.mpr ⟨uint16At_eq_ok_iff.mp hn, hat⟩, ?_⟩
    omega
  · rintro ⟨hcode, n, hat, hlen⟩
    obtain ⟨hn, hpayload⟩ := standsAt_append.mp hat
    have hle := hpayload.le
    rw [length_putUint16] at hle hpayload
    unfold parseUserdataData
    rw [if_neg (by omega), show indexAt data 0 = .ok retCodeSuccess from index_eq_ok_iff.mpr hcode, Outcome.ok_bind,
      returnCodeError_eq_none.mpr rfl, show wordAt data 2 = .ok n from uint16At_eq_ok_iff.mpr hn]
    dsimp only [Outcome.ok_bind]
    rw [if_neg (by omega)]
    exact slice_eq_ok_iff.mpr ⟨hpayload, by omega⟩

theorem parseUserdataData_head {data payload : Bytes} (h : parseUserdataData data = .ok payload) :
    data.head? = some retCodeSuccess := by
  obtain ⟨hcode, -⟩ := parseUserdataData_eq_ok.mp h
  obtain ⟨rest, rfl⟩ := standsAt_zero.mp hcode
  rfl

theorem Followed.head {group subfunc : UInt8} {up : UserdataParam} {as : List Packet} {st st' : Client × σ}
    (h : Followed net group subfunc up as st st') : ∀ p ∈ as, p.data.head? = some retCodeSuccess := by
  induction as generalizing up st with
  | nil => exact nofun
  | cons a as ih =>
    obtain ⟨-, -, -, st₁, ⟨-, -, -, hdata⟩, hfollow⟩ := h
    rintro p (_ | ⟨_, hp⟩)
    · exact parseUserdataData_head hdata
    · exact ih hfollow p hp

/-- Every packet that was accepted has the return code of a success. -/
theorem Conversation.head {group subfunc : UInt8} {req : Bytes} {ref : UInt16} {a : Packet} {as : List Packet}
    {st st' : Client × σ} (h : Conversation net group subfunc req ref st a as st') :
    ∀ p ∈ a :: as, p.data.head? = some retCodeSuccess := by
  obtain ⟨-, -, st₁, ⟨-, -, -, hdata⟩, hfollow⟩ := h
  rintro p (_ | ⟨_, hp⟩)
  · exact parseUserdataData_head hdata
  · exact hfollow.head p hp

/-- A packet is determined by the request it answers. -/
theorem Accepts.unique {a a' : Packet} {st st₁ st₂ : Client × σ} (h : Accepts net a st st₁) (h' : Accepts net a' st st₂)
    (hreq : a'.req = a.req) (href : a'.ref = a.ref) : a' = a ∧ st₂ = st₁ := by
  obtain ⟨req, ref, data, up, payload⟩ := a
  obtain ⟨req', ref', data', up', payload'⟩ := a'
  obtain ⟨param, hsend, hparam, hdata⟩ := h
  obtain ⟨param', hsend', hparam', hdata'⟩ := h'
  dsimp only at hreq href hsend hsend' hparam hparam' hdata hdata'
  subst hreq href
  rw [hsend] at hsend'
  cases hsend'
  rw [hparam] at hparam'
  rw [hdata] at hdata'
  cases hparam'
  cases hdata'
  exact ⟨rfl, rfl⟩

theorem Followed.unique {group subfunc : UInt8} {up : UserdataParam} {as as' : List Packet} {st st₁ st₂ : Client × σ}
    (h : Followed net group subfunc up as st st₁) (h' : Followed net group subfunc up as' st st₂) : as' = as := by
  induction as generalizing up as' st with
  | nil => exact ((followed_of_last h.1).mp h').1
  | cons a as ih =>
    obtain ⟨hmore, href, hreq, st₃, haccept, hfollow⟩ := h
    cases as' with
    | nil =>
      have hlast := h'.1
      rw [hmore] at hlast
      cases hlast
    | cons a' as' =>
      obtain ⟨-, href', hreq', st₄, haccept', hfollow'⟩ := h'
      have hrefs : a'.ref = a.ref := href'.trans href.symm
      obtain ⟨rfl, rfl⟩ := haccept.unique haccept' (by rw [hreq', hreq, hrefs]) hrefs
      rw [ih hfollow hfollow']

/-- The packets of a call are determined by the peer. -/
theorem Conversation.unique {group subfunc : UInt8} {req : Bytes} {ref : UInt16} {a a' : Packet} {as as' : List Packet}
    {st st₁ st₂ : Client × σ} (h : Conversation net group subfunc req ref st a as st₁)
    (h' : Conversation net group subfunc req ref st a' as' st₂) : a' = a ∧ as' = as := by
  obtain ⟨hreq, href, st₃, haccept, hfollow⟩ := h
  obtain ⟨hreq', href', st₄, haccept', hfollow'⟩ := h'
  obtain ⟨rfl, rfl⟩ := haccept.unique haccept' (hreq'.trans hreq.symm) (href'.trans href.symm)
  exact ⟨rfl, hfollow.unique hfollow'⟩

theorem CodedAnswer.not_errorsReported (h : CodedAnswer net call c w) : ¬ErrorsReported net call c w := by
  obtain ⟨q, a, as, st', hq, hconv, hlen, hdecodes, p, hp, hcode⟩ := h
  intro hreported
  have hsucceeds : call.Succeeds net (c, w) st' :=
    UserdataCall.succeeds_iff.mpr ⟨q, hq, _, _, userdata_eq_ok.mpr ⟨a, as, hconv, hlen, rfl, rfl⟩, hdecodes⟩
  exact hcode (hreported st' hsucceeds q hq a as hconv p hp).1

end Reported

/-- Errors in the answers to user data calls are reported, unless the peer puts one into the parameter section of a
    packet that it otherwise sends as a success. -/
theorem userdata_errors_reported_iff {σ : Type} (net : Net σ) (call : UserdataCall) (c : Client) (w : σ) :
    ErrorsReported net call c w ↔ ¬CodedAnswer net call c w := by
  refine ⟨fun h hcoded => hcoded.not_errorsReported h, fun h st' hsucceeds q hq a as hconv p hp => ?_⟩
  refine ⟨by_contra fun hcode => h ?_, hconv.head p hp⟩
  obtain ⟨q', hq', first, payload, hcall, hdecodes⟩ := UserdataCall.succeeds_iff.mp hsucceeds
  obtain rfl : q = q' := Option.some.inj (hq.symm.trans hq')
  obtain ⟨a', as', hconv', hlen, rfl, rfl⟩ := userdata_eq_ok.mp hcall
  obtain ⟨rfl, rfl⟩ := hconv.unique hconv'
  exact ⟨q, a', as', st', hq, hconv', hlen, hdecodes, p, hp, hcode⟩

/-- A peer whose parameter section says that a block was not found (0xD209), with a list in its data section. -/
def codedNet : Net Unit where
  ctxErr w := (none, w)
  wait w := (none, w)
  writeTSDU _ w := (none, w)
  readTSDU w := (.ok (message rosctrUserdata 1
    [0x00, 0x01, 0x12, 0x08, userdataRes, 0x84, userdataSZL, 0x01, 0x00, 0x00, 0xD2, 0x09]
    [retCodeSuccess, 0x09, 0x00, 0x08, 0x00, 0x11, 0x00, 0x00, 0x00, 0x1C, 0x00, 0x00]), w)

/-- The packet that the peer sends. -/
def codedPacket : Packet where
  req := encodeSZLRequest 1 szlModuleID 0
  ref := 1
  data := [0xFF, 0x09, 0x00, 0x08, 0x00, 0x11, 0x00, 0x00, 0x00, 0x1C, 0x00, 0x00]
  up := ⟨4, 1, 1, false, 0xD209⟩
  payload := [0x00, 0x11, 0x00, 0x00, 0x00, 0x1C, 0x00, 0x00]

theorem codedNet_accepts : Accepts codedNet codedPacket (⟨true, 240, 1, 0⟩, ()) (⟨true, 240, 1, 0⟩, ()) := by
  have hrun : userdataPacket codedNet "user data response" codedPacket.req 1 (⟨true, 240, 1, 0⟩, ()) =
      (.ok (codedPacket.data, codedPacket.up, codedPacket.payload), (⟨true, 240, 1, 0⟩, ())) := by decide +kernel
  exact userdataPacket_eq_ok.mp hrun

/-- The list is returned as if the CPU had not refused it. -/
theorem readSZL_takes_coded_answer :
    readSZL codedNet szlModuleID 0 (⟨true, 240, 0, 0⟩, ()) =
        (.ok ⟨0x0011, 0, 8, [0x00, 0x1C, 0x00, 0x00]⟩, (⟨true, 240, 1, 0⟩, ())) ∧
      ¬ErrorsReported codedNet (.readSZL szlModuleID 0) ⟨true, 240, 0, 0⟩ () := by
  have hnumbered : UserdataCall.numbered ⟨true, 240, 0, 0⟩ userdataGroupCPU userdataSZL
      (fun ref => encodeSZLRequest ref szlModuleID 0) =
        ⟨userdataGroupCPU, userdataSZL, encodeSZLRequest 1 szlModuleID 0, 1, ⟨true, 240, 1, 0⟩⟩ := by
    have hnext : nextPDURefFrom 0 = (1, 1) := by decide +kernel
    rw [UserdataCall.numbered, hnext]
  refine ⟨by decide +kernel, CodedAnswer.not_errorsReported ?_⟩
  refine ⟨_, codedPacket, [], _, congrArg some hnumbered, ⟨rfl, rfl, _, codedNet_accepts, rfl, rfl⟩, by decide, ?_,
    codedPacket, List.mem_singleton_self _, by decide⟩
  exact ⟨⟨⟨0x0011, 0, 8, [0x00, 0x1C, 0x00, 0x00]⟩, by decide +kernel⟩, by decide⟩

end S7Comm
