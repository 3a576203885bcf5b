import S7Comm.Theorems.UserdataErrors

/-! The data section of an SZL answer. Two parsers read it: one for any user data answer, whose payloads the client
    joins, and one for the first packet of a list, which the client uses as a check before it cuts SZL ID and index off
    the joined payloads. -/

namespace S7Comm
open Go

/-! ### Sections -/

section Sections
variable {data payload : Bytes} {resp : SZLResponse}

/-- A first packet that is accepted: the length covers SZL ID, index and the list. -/
theorem parseSZLResponse_eq_ok : parseSZLResponse data = .ok resp ↔
    StandsAt data 0 [retCodeSuccess] ∧
      StandsAt data 2 (putUint16 resp.dataLength ++ (putUint16 resp.szlID ++ (putUint16 resp.szlIndex ++ resp.data))) ∧
      resp.data.length + 4 = resp.dataLength.toNat := by
  simp only [standsAt_append, length_putUint16]
  constructor
  · intro h
    have hne : 0 < data.length := by
      rcases data with _ | ⟨x, data⟩
      · cases h
      · exact Nat.succ_pos _
    unfold parseSZLResponse at h
    rw [if_pos hne] at h
    obtain ⟨code, hcode, h⟩ := Outcome.bind_eq_ok.mp h
    split at h
    · cases h
    rename_i hnone
    rw [returnCodeError_eq_none.mp hnone] at hcode
    unfold parseSZLList at h
    split at h
    · cases h
    obtain ⟨n, hn, h⟩ := Outcome.bind_eq_ok.mp h
    dsimp only at h
    split at h
    · cases h
    split at h
    · cases h
    obtain ⟨id, hid, h⟩ := Outcome.bind_eq_ok.mp h
    obtain ⟨index, hindex, h⟩ := Outcome.bind_eq_ok.mp h
    obtain ⟨list, hlist, h⟩ := Outcome.bind_eq_ok.mp h
    cases h
    obtain ⟨hat, hlen⟩ := slice_eq_ok_iff.mp hlist
    refine ⟨index_eq_ok_iff.mp hcode, ⟨uint16At_eq_ok_iff.mp hn, uint16At_eq_ok_iff.mp hid,
      uint16At_eq_ok_iff.mp hindex, hat⟩, ?_⟩
    dsimp only
    omega
  · rintro ⟨hcode, ⟨hn, hid, hindex, hat⟩, hlen⟩
    have hle := hat.le
    unfold parseSZLResponse
    rw [if_pos (by omega), show indexAt data 0 = .ok retCodeSuccess from index_eq_ok_iff.mpr hcode, Outcome.ok_bind,
      returnCodeError_eq_none.mpr rfl]
    unfold parseSZLList
    rw [if_neg (by omega), show wordAt data 2 = .ok resp.dataLength from uint16At_eq_ok_iff.mpr hn]
    dsimp only [Outcome.ok_bind]
    rw [if_neg (by omega), if_neg (by omega), show wordAt data 4 = .ok resp.szlID from uint16At_eq_ok_iff.mpr hid,
      show wordAt data 6 = .ok resp.szlIndex from uint16At_eq_ok_iff.mpr hindex,
      show sliceOf data 8 (4 + resp.dataLength.toNat) = .ok resp.data from slice_eq_ok_iff.mpr ⟨hat, by omega⟩]
    rfl

/-- Both parsers read the same bytes: the list is what follows SZL ID and index in the payload. -/
theorem parseSZLResponse_eq_ok_iff : parseSZLResponse data = .ok resp ↔
    parseUserdataData data = .ok (putUint16 resp.szlID ++ (putUint16 resp.szlIndex ++ resp.data)) ∧
      resp.dataLength.toNat = resp.data.length + 4 := by
  have hlen : (putUint16 resp.szlID ++ (putUint16 resp.szlIndex ++ resp.data)).length = resp.data.length + 4 := by
    simp only [List.length_append, length_putUint16]
    omega
  rw [parseSZLResponse_eq_ok, parseUserdataData_eq_ok, hlen]
  constructor
  · rintro ⟨hcode, hat, hlength⟩
    exact ⟨⟨hcode, resp.dataLength, hat, hlength⟩, hlength.symm⟩
  · rintro ⟨⟨hcode, n, hat, hn⟩, hlength⟩
    have hsame : n = resp.dataLength := UInt16.toNat_inj.mp (hn.symm.trans hlength.symm)
    exact ⟨hcode, hsame ▸ hat, hlength.symm⟩

/-- SZL ID, index and list of a payload that has room for them. -/
theorem exists_list (h : 4 ≤ payload.length) :
    ∃ id index : UInt16, payload = putUint16 id ++ (putUint16 index ++ payload.drop 4) := by
  match payload, h with
  | a :: b :: c :: d :: list, _ => exact ⟨be16 a b, be16 c d, by rw [putUint16_be16, putUint16_be16]; rfl⟩

theorem eq_list_iff {id index : UInt16} {list : Bytes} :
    payload = putUint16 id ++ (putUint16 index ++ list) ↔
      4 ≤ payload.length ∧ wordAt payload 0 = .ok id ∧ wordAt payload 2 = .ok index ∧ list = payload.drop 4 := by
  have hwords : ∀ (id index : UInt16) (list : Bytes), payload = putUint16 id ++ (putUint16 index ++ list) →
      wordAt payload 0 = .ok id ∧ wordAt payload 2 = .ok index := by
    rintro id index list rfl
    exact ⟨uint16At_eq_ok_iff.mpr (standsAt_zero.mpr ⟨_, rfl⟩), uint16At_eq_ok_iff.mpr ⟨putUint16 id, list, rfl, rfl⟩⟩
  constructor
  · intro h
    obtain ⟨hid, hindex⟩ := hwords id index list h
    refine ⟨?_, hid, hindex, by rw [h]; rfl⟩
    rw [h]
    simp only [List.length_append, length_putUint16]
    omega
  · rintro ⟨hlen, hid, hindex, rfl⟩
    obtain ⟨id', index', h⟩ := exists_list hlen
    obtain ⟨hid', hindex'⟩ := hwords id' index' _ h
    cases hid.symm.trans hid'
    cases hindex.symm.trans hindex'
    exact h

/-- The two parsers agree, in terms of what is read from the payload. -/
theorem parseSZLResponse_iff_words : parseSZLResponse data = .ok resp ↔
    ∃ payload, parseUserdataData data = .ok payload ∧ 4 ≤ payload.length ∧ wordAt payload 0 = .ok resp.szlID ∧
      wordAt payload 2 = .ok resp.szlIndex ∧ resp.data = payload.drop 4 ∧ resp.dataLength.toNat = payload.length := by
  rw [parseSZLResponse_eq_ok_iff]
  constructor
  · rintro ⟨hdata, hlength⟩
    obtain ⟨hlen, hid, hindex, hlist⟩ :=
      eq_list_iff.mp (Eq.refl (putUint16 resp.szlID ++ (putUint16 resp.szlIndex ++ resp.data)))
    refine ⟨_, hdata, hlen, hid, hindex, hlist, ?_⟩
    simp only [hlength, List.length_append, length_putUint16]
    omega
  · rintro ⟨payload, hdata, hlen, hid, hindex, hlist, hlength⟩
    have hpayload := eq_list_iff.mpr ⟨hlen, hid, hindex, hlist⟩
    refine ⟨hpayload ▸ hdata, ?_⟩
    rw [hlength, hlist, List.length_drop]
    omega

theorem parseSZLResponse_succeeds : (∃ resp, parseSZLResponse data = .ok resp) ↔
    ∃ payload, parseUserdataData data = .ok payload ∧ 4 ≤ payload.length := by
  constructor
  · rintro ⟨resp, h⟩
    obtain ⟨payload, hdata, hlen, -⟩ := parseSZLResponse_iff_words.mp h
    exact ⟨payload, hdata, hlen⟩
  · rintro ⟨payload, hdata, hlen⟩
    obtain ⟨-, n, -, hn⟩ := parseUserdataData_eq_ok.mp hdata
    obtain ⟨id, index, hlist⟩ := exists_list hlen
    obtain ⟨-, hid, hindex, -⟩ := eq_list_iff.mp hlist
    exact ⟨⟨id, index, n, payload.drop 4⟩,
      parseSZLResponse_iff_words.mpr ⟨payload, hdata, hlen, hid, hindex, rfl, hn.symm⟩⟩

end Sections

/-! ### Reading a list -/

section ReadSZL
variable {σ : Type} {net : Net σ}

/-- The joined payloads of a list that is accepted. The first has room for SZL ID and index, so the cut is in it. -/
theorem slice_conversation {group subfunc : UInt8} {req : Bytes} {ref : UInt16} {st st' : Client × σ} {a : Packet}
    {as : List Packet} {resp : SZLResponse} (h : Conversation net group subfunc req ref st a as st')
    (hresp : parseSZLResponse a.data = .ok resp) :
    sliceOf ((a :: as).flatMap Packet.payload) 4 ((a :: as).flatMap Packet.payload).length =
      .ok (resp.data ++ as.flatMap Packet.payload) := by
  obtain ⟨-, -, st₁, ⟨-, -, -, hdata⟩, -⟩ := h
  obtain ⟨hlist, -⟩ := parseSZLResponse_eq_ok_iff.mp hresp
  have hpayload := Outcome.ok.inj (hdata.symm.trans hlist)
  rw [List.flatMap_cons, hpayload]
  refine slice_eq_ok_iff.mpr ⟨⟨putUint16 resp.szlID ++ putUint16 resp.szlIndex, [], by simp, rfl⟩, ?_⟩
  simp only [List.length_append, length_putUint16]
  omega

theorem szlOf_conversation {group subfunc : UInt8} {req : Bytes} {ref : UInt16} {st st' : Client × σ} {a : Packet}
    {as : List Packet} (h : Conversation net group subfunc req ref st a as st') :
    szlOf a.data ((a :: as).flatMap Packet.payload) =
      (parseSZLResponse a.data >>= fun resp => .ok { resp with data := resp.data ++ as.flatMap Packet.payload }) := by
  unfold szlOf
  rcases hresp : parseSZLResponse a.data with resp | err | _
  · rw [Outcome.ok_bind, Outcome.ok_bind, slice_conversation h hresp]
    rfl
  · rfl
  · rfl

variable {id index : UInt16} {c : Client} {w : σ}

/-- The request of `readSZL`, with its reference and the client that sends it. -/
def szlRequest (id index : UInt16) (c : Client) : UserdataRequest :=
  UserdataCall.numbered c userdataGroupCPU userdataSZL fun ref => encodeSZLRequest ref id index

theorem readSZL_apply :
    readSZL net id index (c, w) =
      (userdata net userdataGroupCPU userdataSZL (szlRequest id index c).req (szlRequest id index c).ref >>= fun p =>
        (liftM (szlOf p.1 p.2) : ClientM σ SZLResponse)) ((szlRequest id index c).client, w) := rfl

/-- After the exchange nothing can panic. -/
theorem readSZL_eq_panic : (readSZL net id index (c, w)).1 = .panic ↔
    (userdata net userdataGroupCPU userdataSZL (szlRequest id index c).req (szlRequest id index c).ref
      ((szlRequest id index c).client, w)).1 = .panic := by
  rw [readSZL_apply, Eff.bind_eq_panic]
  refine ⟨fun h => h.resolve_right ?_, .inl⟩
  rintro ⟨⟨first, payload⟩, st₁, hcall, h⟩
  obtain ⟨a, as, hconv, -, rfl, rfl⟩ := userdata_eq_ok.mp hcall
  rw [Eff.lift_apply, szlOf_conversation hconv] at h
  rcases hresp : parseSZLResponse a.data with resp | err | _
  · rw [hresp] at h
    cases h
  · rw [hresp] at h
    cases h
  · exact parseSZLResponse_ne_panic a.data hresp

theorem readSZL_eq_ok {r : SZLResponse} {st' : Client × σ} : readSZL net id index (c, w) = (.ok r, st') ↔
    ∃ a as resp, Conversation net userdataGroupCPU userdataSZL (szlRequest id index c).req (szlRequest id index c).ref
        ((szlRequest id index c).client, w) a as st' ∧
      as.length ≤ maxUserdataFollowUps ∧ parseSZLResponse a.data = .ok resp ∧
      r = { resp with data := resp.data ++ as.flatMap Packet.payload } := by
  rw [readSZL_apply, Eff.bind_eq_ok]
  constructor
  · rintro ⟨⟨first, payload⟩, st₁, hcall, h⟩
    obtain ⟨a, as, hconv, hlen, rfl, rfl⟩ := userdata_eq_ok.mp hcall
    rw [Eff.lift_apply, szlOf_conversation hconv] at h
    obtain ⟨hof, rfl⟩ := Prod.mk.inj h
    obtain ⟨resp, hresp, hr⟩ := Outcome.bind_eq_ok.mp hof
    exact ⟨a, as, resp, hconv, hlen, hresp, (Outcome.ok.inj hr).symm⟩
  · rintro ⟨a, as, resp, hconv, hlen, hresp, rfl⟩
    refine ⟨(a.data, (a :: as).flatMap Packet.payload), st', userdata_eq_ok.mpr ⟨a, as, hconv, hlen, rfl, rfl⟩, ?_⟩
    rw [Eff.lift_apply, szlOf_conversation hconv, hresp]
    rfl

end ReadSZL

/-- The two parsers of a section agree on every byte string. So the cut of `readSZL` after the check of the first packet
    is in range whatever packets follow, and leaves the list of the first packet with all payloads after it. -/
theorem szl_sections_agree :
    (∀ data, (∃ resp, parseSZLResponse data = .ok resp) ↔
      ∃ payload, parseUserdataData data = .ok payload ∧ 4 ≤ payload.length) ∧
    (∀ data resp, parseSZLResponse data = .ok resp ↔
      ∃ payload, parseUserdataData data = .ok payload ∧ 4 ≤ payload.length ∧ wordAt payload 0 = .ok resp.szlID ∧
        wordAt payload 2 = .ok resp.szlIndex ∧ resp.data = payload.drop 4 ∧
        resp.dataLength.toNat = payload.length) ∧
    ∀ {σ : Type} (net : Net σ) (id index : UInt16) (c : Client) (w : σ),
      let q := szlRequest id index c
      let call := userdata net userdataGroupCPU userdataSZL q.req q.ref (q.client, w)
      (∀ first payload st' resp, call = (.ok (first, payload), st') → parseSZLResponse first = .ok resp →
        ∃ a as, Conversation net userdataGroupCPU userdataSZL q.req q.ref (q.client, w) a as st' ∧ first = a.data ∧
          sliceOf payload 4 payload.length = .ok (resp.data ++ as.flatMap Packet.payload)) ∧
      ((readSZL net id index (c, w)).1 = .panic ↔ call.1 = .panic) ∧
      ∀ r st', readSZL net id index (c, w) = (.ok r, st') ↔
        ∃ a as resp, Conversation net userdataGroupCPU userdataSZL q.req q.ref (q.client, w) a as st' ∧
          as.length ≤ maxUserdataFollowUps ∧ parseSZLResponse a.data = .ok resp ∧
          r = { resp with data := resp.data ++ as.flatMap Packet.payload } := by
  refine ⟨fun data => parseSZLResponse_succeeds, fun data resp => parseSZLResponse_iff_words, ?_⟩
  intro σ net id index c w q call
  refine ⟨?_, readSZL_eq_panic, fun r st' => readSZL_eq_ok⟩
  intro first payload st' resp hcall hresp
  obtain ⟨a, as, hconv, -, rfl, rfl⟩ := userdata_eq_ok.mp hcall
  exact ⟨a, as, hconv, rfl, slice_conversation hconv hresp⟩

end S7Comm
