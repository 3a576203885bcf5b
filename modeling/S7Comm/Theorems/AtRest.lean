import S7Comm.Lib.Ends
import S7Comm.System.Conversation
import S7Comm.Theorems.LinkBits

/-! Calls that leave the server as it is. Every request of the client other than a setup and a write is answered without
    a change, and what the server does not implement it refuses in a way that the client reports as an error. -/

namespace S7Comm
open Go

/-- The connection as a connected client sees it, or one that is not. -/
def linkNet (cfg : ServerConfig) (on : Bool) : Net Link := (linkEnv cfg).net (if on then some () else none)

/-- Between two calls: nothing is under way and the memory is `mem`. A connected client has the PDU size of the
    server. -/
structure AtRest (p : Nat) (mem : Memory) (on : Bool) (st : Client × Link) : Prop where
  connected : st.1.connected = on
  linked : on = true → Linked p st.1 st.2
  mem_eq : st.2.session.mem = mem

section Exchange
variable {cfg : ServerConfig} {p : Nat} {mem : Memory} {on : Bool} {st : Client × Link} {rosctr : UInt8} {ref : UInt16} {param data : Bytes}

theorem AtRest.session (h : AtRest p mem true st) : st.2.session = ⟨mem, p⟩ := by
  rw [← h.mem_eq, ← (h.linked rfl).session]

theorem AtRest.withRef (h : AtRest p mem on st) (pduRef : UInt32) : AtRest p mem on ({ st.1 with pduRef }, st.2) where
  connected := h.connected
  linked hon := ⟨(h.linked hon).connected, (h.linked hon).client, (h.linked hon).session, (h.linked hon).idle⟩
  mem_eq := h.mem_eq

/-- An exchange that leaves the session as it is. -/
theorem sendReceive_served (ref : UInt16) {req out : Bytes} (hfits : req.length ≤ p)
    (h : handle cfg req ⟨mem, p⟩ = (.ok (some out, true), ⟨mem, p⟩)) :
    Eff.Ends (AtRest p mem true) (sendReceive (linkNet cfg true) req ref) fun r => r = responseSections out ref := by
  rintro ⟨c, w⟩ hst
  have hw := hst.linked rfl
  have hserve : handle cfg req w.session = (.ok (some out, true), w.session) := by
    rw [show w.session = ⟨mem, p⟩ from hst.session]
    exact h
  obtain ⟨w', hsend, hlinked, hsession⟩ := hw.exchange cfg ref hfits hserve hw.session
  rw [show sendReceive (linkNet cfg true) req ref (c, w) = _ from hsend]
  exact ⟨⟨hst.connected, fun _ => hlinked, by rw [hsession]; exact hst.mem_eq⟩, rfl⟩

/-- A request that is not sent, or an exchange that leaves the session as it is. -/
theorem sendReceive_atRest {req out : Bytes} (h : handle cfg req ⟨mem, p⟩ = (.ok (some out, true), ⟨mem, p⟩)) :
    Eff.Ends (AtRest p mem on) (sendReceive (linkNet cfg on) req ref) fun r =>
      Eff.Failed r ∨ r = responseSections out ref := by
  rintro ⟨c, w⟩ hst
  by_cases hsent : c.connected = true ∧ ¬(c.pduSize > 0 ∧ req.length > c.pduSize)
  · obtain rfl : on = true := by rw [← hst.connected, hsent.1]
    have hfits : ¬(c.pduSize > 0 ∧ req.length > c.pduSize) := hsent.2
    have hserve : handle cfg req w.session = (.ok (some out, true), w.session) := by
      rw [show w.session = ⟨mem, p⟩ from hst.session]
      exact h
    have hw := hst.linked rfl
    rw [show sendReceive (linkNet cfg true) req ref (c, w) = _ from
      sendReceive_link cfg ref hw.idle hw.connected hfits hserve]
    exact ⟨⟨hst.connected, fun _ => ⟨hw.connected, hw.client, hw.session, hw.idle.after _ _ _⟩, hst.mem_eq⟩, .inr rfl⟩
  · obtain ⟨e, -, he⟩ : ∃ e, _ ∧ sendReceive (linkNet cfg on) req ref (c, w) = (.fail e, (c, w)) :=
      sendReceive_unsent hsent
    rw [he]
    exact ⟨hst, .inl ⟨e, rfl⟩⟩

/-- Without a connection no request is sent. -/
theorem sendReceive_off (req : Bytes) :
    Eff.Ends (AtRest p mem false) (sendReceive (linkNet cfg false) req ref) Eff.Failed := by
  rintro ⟨c, w⟩ hst
  obtain ⟨e, -, he⟩ : ∃ e, _ ∧ sendReceive (linkNet cfg false) req ref (c, w) = (.fail e, (c, w)) :=
    sendReceive_unsent fun h => absurd (hst.connected.symm.trans h.1) (by decide)
  rw [he]
  exact ⟨hst, e, rfl⟩

theorem nextPDURef_atRest : Eff.Ends (AtRest p mem on) nextPDURef fun r => ∃ ref, r = .ok ref ∧ True := by
  rintro ⟨c, w⟩ hst
  rw [nextPDURef_apply]
  exact ⟨hst.withRef _, _, rfl, trivial⟩

theorem ctxErr_atRest : Eff.Ends (AtRest p mem on) (netErr (linkNet cfg on).ctxErr) fun r => ∃ a, r = .ok a ∧ True :=
  fun _ hst => ⟨hst, (), rfl, trivial⟩

theorem chunkGate_atRest (first : Bool) :
    Eff.Ends (AtRest p mem on) (chunkGate (linkNet cfg on) first) fun r => ∃ a, r = .ok a ∧ True := by
  unfold chunkGate
  refine ctxErr_atRest.bind_ok fun _ _ => Eff.ends_get.bind_ok ?_
  rintro ⟨c, w⟩ -
  dsimp only
  split
  · exact fun _ hst => ⟨hst, (), rfl, trivial⟩
  · exact Eff.ends_pure ⟨(), rfl, trivial⟩

end Exchange

/-! ### User data -/

section Userdata
variable {cfg : ServerConfig} {p : Nat} {mem : Memory} {on : Bool} (group subfunc : UInt8) (ref : UInt16)

theorem responseSections_userdata {resp item : Bytes} (hresp : resp.length + item.length ≤ 65535) :
    responseSections (message rosctrUserdata ref resp item) ref = .ok (resp, item) := by
  have hp : (UInt16.ofNat resp.length).toNat = resp.length := uint16_toNat_ofNat (by omega)
  have hd : (UInt16.ofNat item.length).toNat = item.length := uint16_toNat_ofNat (by omega)
  have hsum : (UInt16.ofNat resp.length + UInt16.ofNat item.length).toNat = resp.length + item.length := by
    rw [UInt16.toNat_add, hp, hd]
    omega
  unfold responseSections
  rw [parseS7Header_message (by decide) (by omega) (by omega)]
  dsimp only
  rw [if_neg (by simp), if_neg (by simp), hp, hd, if_neg (by simp), hsum, sliceOf_of_le (by omega) (by simp),
    Outcome.ok_bind, sliceOf_of_le (by omega) (by simp), Outcome.ok_bind]
  simp

/-- The answer of the server to a user data request. -/
def refusedUserdata : Bytes :=
  message rosctrUserdata ref [0x00, 0x01, 0x12, 0x08, 0x12,
    0x80 ||| ((userdataTypeRequest ||| (group &&& 0x0F)) &&& 0x3F), subfunc, 0x00, 0x00, 0x00, errClassApp, errCodeNotImpl]
    [retCodeNotAvailable, 0x00, 0x00, 0x00]

theorem handle_userdata {data : Bytes} (hd : data.length ≤ 65535) (s : Session) :
    handle cfg (userdataRequest ref group subfunc data) s =
      (.ok (some (refusedUserdata group subfunc ref), true), s) := by
  unfold userdataRequest encodeUserdataRequest
  rw [encodeMessage_eq (by simp) hd]
  unfold encoded
  rw [handle_message (by simp) hd]
  rfl

/-- A user data call is refused by the server, and the client reports it. -/
theorem userdata_atRest {data : Bytes} (hd : data.length ≤ 65535) :
    Eff.Ends (AtRest p mem on) (userdata (linkNet cfg on) group subfunc (userdataRequest ref group subfunc data) ref)
      Eff.Failed := by
  unfold userdata userdataPacket
  refine Eff.Ends.bind_failed ?_ _
  refine (sendReceive_atRest (handle_userdata group subfunc ref hd ⟨mem, p⟩)).bind ?_ ?_ ?_
  · rintro ⟨param, item⟩ (⟨e, he⟩ | hans)
    · cases he
    rw [refusedUserdata, responseSections_userdata ref (by simp)] at hans
    cases hans
    exact Eff.ends_fail _
  · exact fun e _ => ⟨e, rfl⟩
  · rintro (⟨e, he⟩ | hans)
    · cases he
    · rw [refusedUserdata, responseSections_userdata ref (by simp)] at hans
      cases hans

/-- A call that takes a reference and makes a user data request is refused. -/
theorem userdataCall_atRest {α : Type} {req : UInt16 → Bytes} (hreq : ∀ ref, ∃ data : Bytes, data.length ≤ 65535 ∧
      req ref = userdataRequest ref group subfunc data) (f : Bytes × Bytes → ClientM Link α) :
    Eff.Ends (AtRest p mem on)
      (do
        let ref ← nextPDURef
        let answer ← userdata (linkNet cfg on) group subfunc (req ref) ref
        f answer) Eff.Failed := by
  refine nextPDURef_atRest.bind_ok fun ref _ => ?_
  obtain ⟨data, hd, hr⟩ := hreq ref
  rw [hr]
  exact (userdata_atRest group subfunc ref hd).bind_failed _

end Userdata

section Calls
variable {cfg : ServerConfig} {p : Nat} {mem : Memory} {on : Bool}

theorem readSZL_atRest (id index : UInt16) : Eff.Ends (AtRest p mem on) (readSZL (linkNet cfg on) id index) Eff.Failed :=
  userdataCall_atRest userdataGroupCPU userdataSZL (fun _ => ⟨_, by simp, rfl⟩) _

theorem listBlocks_atRest (bt : UInt8) : Eff.Ends (AtRest p mem on) (listBlocks (linkNet cfg on) bt) Eff.Failed :=
  userdataCall_atRest userdataGroupBlock userdataBlockList (fun _ => ⟨_, by simp, rfl⟩) _

theorem blockCounts_atRest : Eff.Ends (AtRest p mem on) (Client.blockCounts (linkNet cfg on)) Eff.Failed :=
  userdataCall_atRest userdataGroupBlock userdataBlockCount (fun _ => ⟨_, by simp, rfl⟩) _

theorem getBlockInfo_atRest (bt : UInt8) (num : Int) :
    Eff.Ends (AtRest p mem on) (getBlockInfo (linkNet cfg on) bt num) Eff.Failed := by
  unfold getBlockInfo
  split
  · exact Eff.ends_fail _
  · refine nextPDURef_atRest.bind_ok fun ref _ => ?_
    unfold encodeBlockInfoRequest blockAddress
    split
    · exact (Eff.ends_fail _).bind_failed _
    · exact (userdata_atRest userdataGroupBlock userdataBlockInfo ref (by simp [fiveDigits])).bind_failed _

/-- The refusal of a job is an error of the client. -/
theorem responseSections_notImplemented (fn : UInt8) (ref : UInt16) :
    ∃ e, responseSections (ackData ref errClassApp errCodeNotImpl [fn] []) ref = .fail e := by
  unfold responseSections
  rw [parseS7Header_ackData (by simp) (by simp)]
  dsimp only
  rw [if_neg (by simp), if_pos (.inl (by decide))]
  exact ⟨_, rfl⟩

/-- A job that the server does not implement is refused, and the client reports it. -/
theorem sendReceive_notImplemented {fn : UInt8} (hfn : fn ≠ funcSetupComm ∧ fn ≠ funcReadVar ∧ fn ≠ funcWriteVar)
    {rest : Bytes} (hrest : rest.length < 65535) (ref : UInt16) :
    Eff.Ends (AtRest p mem on) (sendReceive (linkNet cfg on) (message rosctrJob ref (fn :: rest) []) ref) Eff.Failed := by
  obtain ⟨hsetup, hread, hwrite⟩ := hfn
  have hserve (s : Session) : handle cfg (message rosctrJob ref (fn :: rest) []) s =
      (.ok (some (ackData ref errClassApp errCodeNotImpl [fn] []), true), s) := by
    rw [handle_message (by simp; omega) (by simp)]
    unfold dispatch
    rw [if_neg (by decide), if_neg (by simp), show indexAt (fn :: rest) 0 = .ok fn from rfl,
      Eff.bind_ok (Eff.lift_apply _ _), if_neg hsetup, if_neg hread, if_neg hwrite, notImplemented_eq]
    rfl
  refine (sendReceive_atRest (hserve ⟨mem, p⟩)).mono ?_
  rintro r (hfail | rfl)
  · exact hfail
  · exact responseSections_notImplemented fn ref

theorem uploadBlock_atRest (bt : UInt8) (num : Int) :
    Eff.Ends (AtRest p mem on) (uploadBlock (linkNet cfg on) bt num) Eff.Failed := by
  unfold uploadBlock
  split
  · exact Eff.ends_fail _
  · refine nextPDURef_atRest.bind_ok fun ref _ => ?_
    unfold encodeStartUploadRequest blockAddress
    split
    · exact (Eff.ends_fail _).bind_failed _
    split
    · exact (Eff.ends_fail _).bind_failed _
    · rw [Outcome.ok_bind, encodeMessage_eq (by simp [fiveDigits]) (by simp)]
      exact (sendReceive_notImplemented (by decide) (by simp [fiveDigits]) ref).bind_failed _

theorem getCPUState_atRest : Eff.Ends (AtRest p mem on) (getCPUState (linkNet cfg on)) Eff.Failed :=
  (readSZL_atRest _ _).bind_failed _

theorem getProtectionLevel_atRest : Eff.Ends (AtRest p mem on) (getProtectionLevel (linkNet cfg on)) Eff.Failed :=
  (readSZL_atRest _ _).bind_failed _

theorem readDiagBufferRaw_atRest : Eff.Ends (AtRest p mem on) (readDiagBufferRaw (linkNet cfg on)) Eff.Failed :=
  (readSZL_atRest _ _).bind_failed _

theorem readDiagBuffer_atRest :
    Eff.Ends (AtRest p mem on) (readDiagBuffer (linkNet cfg on)) fun r => ∃ e, r = .ok (none, some e) := by
  unfold readDiagBuffer
  refine readDiagBufferRaw_atRest.attempt_failed.bind_ok ?_
  rintro _ ⟨e, rfl⟩
  exact Eff.ends_pure ⟨e, rfl⟩

/-- A list that cannot be read adds an error to what is known of the device. -/
theorem identifyWith_atRest {read : ClientM Link Bytes} (hread : Eff.Ends (AtRest p mem on) read Eff.Failed) (what : String)
    (apply : Bytes → Eff DeviceInfo GoError Unit) (info : DeviceInfo) (errs : List GoError) :
    Eff.Ends (AtRest p mem on) (identifyWith read what apply info errs) fun r =>
      ∃ a, r = .ok a ∧ ∃ e, a = (info, errs ++ [e]) := by
  unfold identifyWith
  refine hread.attempt_failed.bind_ok ?_
  rintro _ ⟨e, rfl⟩
  exact Eff.ends_pure ⟨_, rfl, e, rfl⟩

theorem identify_atRest : Eff.Ends (AtRest p mem on) (identify (linkNet cfg on)) fun r => ∃ e, r = .ok (none, some e) := by
  unfold identify
  refine (identifyWith_atRest ((readSZL_atRest _ _).bind_failed _) _ _ _ _).bind_ok ?_
  rintro _ ⟨e₁, rfl⟩
  refine (identifyWith_atRest ((readSZL_atRest _ _).bind_failed _) _ _ _ _).bind_ok ?_
  rintro _ ⟨e₂, rfl⟩
  exact Eff.ends_pure ⟨_, rfl⟩

/-- Every type that is listed adds an error. -/
theorem listBlockTypes_atRest (types : List (UInt8 × String)) (errs : List GoError) :
    Eff.Ends (AtRest p mem on) (listBlockTypes (linkNet cfg on) types [] errs) fun r =>
      ∃ errs', r = .ok ([], errs') ∧ errs'.length = errs.length + types.length := by
  induction types generalizing errs with
  | nil => exact Eff.ends_pure ⟨errs, rfl, rfl⟩
  | cons t types ih =>
    obtain ⟨bt, name⟩ := t
    unfold listBlockTypes
    refine (listBlocks_atRest bt).attempt_failed.bind_ok ?_
    rintro _ ⟨e, rfl⟩
    refine (ih _).mono ?_
    rintro r ⟨errs', hr, hlen⟩
    refine ⟨errs', hr, ?_⟩
    rw [hlen, List.length_append, List.length_singleton, List.length_cons]
    omega

end Calls
end S7Comm
