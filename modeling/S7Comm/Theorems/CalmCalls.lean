import S7Comm.Client.Calls
import S7Comm.Client.Connect
import S7Comm.Lib.Calm
import S7Comm.Theorems.Dialogue
import S7Comm.Theorems.SZL
import S7Comm.Theorems.SZLSections

/-! No call of the client panics, whatever the peer sends, as long as a TSDU has at most 65535 bytes. A longer one may
    declare sections whose end, a sum of 16 bits, wraps; everything else in an answer is checked before it is used. -/

namespace S7Comm
open Go

/-! ### Requests -/

section Requests
variable {α : Type}

theorem asValidation_ne_panic {r : Res α} (h : r ≠ .panic) : asValidation r ≠ .panic :=
  Outcome.relabel_ne_panic asValidation (by simp) (by simp [asValidation]) h

theorem asProtocolFailure_ne_panic (what : String) {r : Res α} (h : r ≠ .panic) :
    asProtocolFailure what r ≠ .panic :=
  Outcome.relabel_ne_panic (asProtocolFailure what) (by simp [asProtocolFailure]) (by simp [asProtocolFailure]) h

theorem asBlockFailure_ne_panic {r : Res α} (h : r ≠ .panic) : asBlockFailure r ≠ .panic :=
  Outcome.relabel_ne_panic asBlockFailure (by simp [asBlockFailure]) (by simp [asBlockFailure]) h

theorem checkedUint16_ne_panic (name : String) (v : Int) : checkedUint16 name v ≠ .panic := by
  unfold checkedUint16
  split_ifs <;> simp

theorem encodeMessage_ne_panic (rosctr : UInt8) (ref : UInt16) (param data : Bytes) :
    encodeMessage rosctr ref param data ≠ .panic := by
  refine Outcome.bind_ne_panic ?_ fun header _ => by simp
  exact Outcome.bind_ne_panic (checkedUint16_ne_panic _ _) fun _ _ =>
    Outcome.bind_ne_panic (checkedUint16_ne_panic _ _) fun _ _ => by simp

theorem encodeS7Any_ne_panic (addr : S7AnyAddress) : encodeS7Any addr ≠ .panic := by
  unfold encodeS7Any
  split_ifs <;> simp

theorem encodeS7AnyBit_ne_panic (addr : S7AnyBitAddress) : encodeS7AnyBit addr ≠ .panic := by
  unfold encodeS7AnyBit
  split_ifs <;> simp

theorem blockAddress_ne_panic (blockType : UInt8) (blockNum : Int) : blockAddress blockType blockNum ≠ .panic := by
  unfold blockAddress
  split_ifs <;> simp

theorem encodeReadVarRequest_ne_panic (ref : UInt16) (addrs : List S7AnyAddress) :
    encodeReadVarRequest ref addrs ≠ .panic := by
  unfold encodeReadVarRequest
  dsimp only
  split
  · simp
  · exact Outcome.bind_ne_panic (Outcome.mapM_ne_panic encodeS7Any_ne_panic addrs) fun _ _ =>
      encodeMessage_ne_panic _ _ _ _

theorem encodeWriteVarRequest_ne_panic (ref : UInt16) (addr : S7AnyAddress) (value : Bytes) :
    encodeWriteVarRequest ref addr value ≠ .panic := by
  unfold encodeWriteVarRequest
  dsimp only
  split
  · simp
  · exact Outcome.bind_ne_panic (encodeS7Any_ne_panic addr) fun _ _ => encodeMessage_ne_panic _ _ _ _

theorem encodeReadVarBitRequest_ne_panic (ref : UInt16) (addr : S7AnyBitAddress) :
    encodeReadVarBitRequest ref addr ≠ .panic :=
  Outcome.bind_ne_panic (encodeS7AnyBit_ne_panic addr) fun _ _ => encodeMessage_ne_panic _ _ _ _

theorem encodeWriteVarBitRequest_ne_panic (ref : UInt16) (addr : S7AnyBitAddress) (value : Bool) :
    encodeWriteVarBitRequest ref addr value ≠ .panic :=
  Outcome.bind_ne_panic (encodeS7AnyBit_ne_panic addr) fun _ _ => encodeMessage_ne_panic _ _ _ _

theorem encodeBlockInfoRequest_ne_panic (ref : UInt16) (blockType : UInt8) (blockNum : Int) :
    encodeBlockInfoRequest ref blockType blockNum ≠ .panic :=
  Outcome.bind_ne_panic (blockAddress_ne_panic blockType blockNum) fun _ _ => by simp

theorem encodeStartUploadRequest_ne_panic (ref : UInt16) (blockType : UInt8) (blockNum : Int) :
    encodeStartUploadRequest ref blockType blockNum ≠ .panic :=
  Outcome.bind_ne_panic (blockAddress_ne_panic blockType blockNum) fun _ _ => encodeMessage_ne_panic _ _ _ _

theorem encodeSetupCommRequest_ne_panic (ref : UInt16) (maxAmqCalling maxAmqCalled pduSize : Int) :
    encodeSetupCommRequest ref maxAmqCalling maxAmqCalled pduSize ≠ .panic :=
  Outcome.bind_ne_panic (checkedUint16_ne_panic _ _) fun _ _ =>
    Outcome.bind_ne_panic (checkedUint16_ne_panic _ _) fun _ _ =>
      Outcome.bind_ne_panic (checkedUint16_ne_panic _ _) fun _ _ => encodeMessage_ne_panic _ _ _ _

end Requests

/-! ### Checks -/

/-- A check that passes or fails. -/
theorem ne_panic_of_cases {r : Res Unit} (h : r = .ok () ∨ ∃ e, r = .fail e) : r ≠ .panic := by
  rcases h with h | ⟨e, h⟩ <;> simp [h]

theorem validateRackSlot_ne_panic (rack slot : Int) : validateRackSlot rack slot ≠ .panic := by
  unfold validateRackSlot
  split_ifs <;> simp

theorem buildTSAP_ne_panic (connType rack slot : Int) : buildTSAP connType rack slot ≠ .panic := by
  refine Outcome.bind_ne_panic (validateRackSlot_ne_panic rack slot) fun _ _ => ?_
  split <;> simp

theorem Options.validate_ne_panic (opts : Options) : opts.validate ≠ .panic := by
  unfold Options.validate
  split_ifs
  iterate 5 simp
  exact asValidation_ne_panic (validateRackSlot_ne_panic _ _)

/-! ### Answers -/

theorem readAnswer_ne_panic (reqLen : Nat) (result : Bytes) (chunkSize : Nat) (param data : Bytes) :
    readAnswer reqLen result chunkSize param data ≠ .panic := by
  unfold readAnswer
  cases hparse : parseReadVarResponse param data with
  | panic => exact absurd hparse (parseReadVarResponse_ne_panic param data)
  | fail err => simp
  | ok items =>
    cases items with
    | nil => simp
    | cons item items =>
      dsimp only
      split
      · simp
      · split_ifs <;> simp

theorem parseWriteVarResponse_ne_panic (param data : Bytes) : parseWriteVarResponse param data ≠ .panic := by
  refine Outcome.bind_ne_panic (parseWriteVarResponseCodes_ne_panic param data) fun codes _ => ?_
  split <;> simp

theorem decodeAsBit_ne_panic (item : ReadVarItem) : decodeAsBit item ≠ .panic := by
  unfold decodeAsBit
  dsimp only
  split_ifs with hcode hsize hlen
  · simp
  · simp
  · simp
  · rw [indexAt_of_lt (by omega)]
    simp

theorem bitAnswer_ne_panic (param data : Bytes) : bitAnswer param data ≠ .panic := by
  unfold bitAnswer
  have hparse := parseReadVarResponse_ne_panic param data
  split
  · contradiction
  · simp
  · rename_i item _
    split
    · simp
    · have hbit := decodeAsBit_ne_panic item
      split
      · simp
      · exact hbit
  · simp

theorem szlRecords_ne_panic (data : Bytes) : szlRecords data ≠ .panic := by
  rcases szlRecords_cases data with ⟨e, h⟩ | ⟨recs, h, -⟩ <;> simp [h]

theorem diagBuffer_ne_panic (raw : Bytes) : diagBuffer raw ≠ .panic := by
  rcases diagBuffer_cases raw with ⟨e, h⟩ | ⟨buf, h⟩ | ⟨e, h⟩ <;> simp [h]

theorem blocksOf_ne_panic (bt : UInt8) (payload : Bytes) : blocksOf bt payload ≠ .panic :=
  Outcome.bind_ne_panic (asBlockFailure_ne_panic (parseBlockListResponse_ne_panic payload)) fun _ _ => by simp

theorem blockCountsOf_ne_panic (payload : Bytes) : blockCountsOf payload ≠ .panic :=
  Outcome.bind_ne_panic (asBlockFailure_ne_panic (parseBlockCountResponse_ne_panic payload)) fun _ _ => by simp

theorem blockInfoOf_ne_panic (bt : UInt8) (num : Int) (payload : Bytes) : blockInfoOf bt num payload ≠ .panic := by
  have hparse := asBlockFailure_ne_panic (parseBlockInfoResponse_ne_panic payload)
  unfold blockInfoOf
  split
  · contradiction
  · simp
  · simp

theorem setupAnswer_ne_panic (s7Data : Bytes) (ref : UInt16) : setupAnswer s7Data ref ≠ .panic := by
  refine Outcome.bind_ne_panic (asProtocolFailure_ne_panic _ (parseS7Header_ne_panic s7Data)) ?_
  rintro ⟨header, param⟩ -
  have hsetup := asProtocolFailure_ne_panic "parse setup response" (parseSetupCommResponse_ne_panic param)
  dsimp only
  split
  · simp
  split
  · exact Outcome.bind_ne_panic (newS7ErrorWithParam_ne_panic _ _ _) fun _ _ => by simp
  split
  · split
    · simp
    · exact hsetup
  · exact hsetup

/-! ### Calls -/

section Calls
variable {σ : Type} {net : Net σ} {q : Prop} {P : Client × σ → Prop}

/-- The operations of the connection and the counter of references keep `P`. If `q` holds, the connection delivers
    TSDUs of at most 65535 bytes. -/
structure Net.Steady (net : Net σ) (q : Prop) (P : Client × σ → Prop) : Prop where
  ctxErr : ∀ c w, P (c, w) → P (c, (net.ctxErr w).2)
  wait : ∀ c w, P (c, w) → P (c, (net.wait w).2)
  writeTSDU : ∀ req c w, P (c, w) → P (c, (net.writeTSDU req w).2)
  readTSDU : ∀ c w, P (c, w) → P (c, (net.readTSDU w).2)
  pduRef : ∀ c w pduRef, P (c, w) → P ({ c with pduRef }, w)
  bounded : q → ∀ w pdu, (net.readTSDU w).1 = .ok pdu → pdu.length ≤ 65535

theorem Net.Steady.unbounded (hnet : net.Steady q P) : net.Steady False P := { hnet with bounded := fun h => h.elim }

theorem netErr_calm {op : σ → Option GoError × σ} (h : ∀ c w, P (c, w) → P (c, (op w).2)) :
    Eff.Calm q P (netErr op) := by
  rintro ⟨c, w⟩ hst
  refine ⟨netErr_preserves h (c, w) hst, fun _ => ?_⟩
  unfold netErr
  dsimp only
  rcases op w with ⟨_ | err, w'⟩ <;> simp

theorem identifyWith_calm {read : ClientM σ Bytes} (hcalm : Eff.Calm q P read) (what : String)
    {apply : Bytes → Eff DeviceInfo GoError Unit} (happly : ∀ data info, (apply data info).1 ≠ .panic)
    (info : DeviceInfo) (errs : List GoError) : Eff.Calm q P (identifyWith read what apply info errs) := by
  refine hcalm.handle (fun err => Eff.calm_pure _) fun raw => ?_
  have hraw := happly raw info
  dsimp only
  rcases hrun : apply raw info with ⟨_ | err | _, info'⟩
  · exact Eff.calm_pure _
  · exact Eff.calm_pure _
  · rw [hrun] at hraw
    exact absurd rfl hraw

variable (hnet : net.Steady q P)
include hnet

theorem nextPDURef_calm : Eff.Calm q P (nextPDURef : ClientM σ UInt16) := by
  rintro ⟨c, w⟩ hst
  exact ⟨hnet.pduRef c w _ hst, by simp [nextPDURef]⟩

theorem chunkGate_calm (first : Bool) : Eff.Calm q P (chunkGate net first) := by
  refine (netErr_calm hnet.ctxErr).bind fun _ => Eff.calm_get.bind ?_
  rintro ⟨c, w⟩
  exact .ite (fun _ => netErr_calm hnet.wait) fun _ => Eff.calm_pure _

theorem bitGate_calm (addr : BitAddress) : Eff.Calm q P (bitGate net addr) := by
  refine (Eff.calm_lift (ne_panic_of_cases (validateBitAddress_cases addr))).bind fun _ => Eff.calm_get.bind ?_
  rintro ⟨c, w⟩
  exact .ite (fun _ => Eff.calm_fail _) fun _ => netErr_calm hnet.ctxErr

theorem sendReceive_calm (req : Bytes) (ref : UInt16) : Eff.Calm q P (sendReceive net req ref) :=
  fun st hst => ⟨sendReceive_preserves (hnet.writeTSDU req) hnet.ctxErr hnet.readTSDU ref st hst,
    fun hq h => not_longAnswer (hnet.bounded hq) req ref st (sendReceive_eq_panic.mp h)⟩

theorem userdataPacket_calm (what : String) (req : Bytes) (ref : UInt16) :
    Eff.Calm q P (userdataPacket net what req ref) := by
  refine (sendReceive_calm hnet req ref).bind ?_
  rintro ⟨param, data⟩
  refine (Eff.calm_lift (asProtocolFailure_ne_panic what (parseUserdataParam_ne_panic param))).bind fun up => ?_
  exact (Eff.calm_lift (parseUserdataData_ne_panic data)).bind fun payload => Eff.calm_pure _

theorem followUps_calm (group subfunc : UInt8) (left : Nat) (up : UserdataParam) (payload : Bytes) :
    Eff.Calm q P (followUps net group subfunc left up payload) := by
  induction left generalizing up payload with
  | zero =>
    unfold followUps
    exact .ite (fun _ => Eff.calm_fail _) fun _ => Eff.calm_pure _
  | succ left ih =>
    unfold followUps
    refine .ite (fun _ => (nextPDURef_calm hnet).bind fun ref => ?_) fun _ => Eff.calm_pure _
    refine (userdataPacket_calm hnet _ _ _).bind ?_
    rintro ⟨data, up, more⟩
    exact ih up (payload ++ more)

theorem userdata_calm (group subfunc : UInt8) (req : Bytes) (ref : UInt16) :
    Eff.Calm q P (userdata net group subfunc req ref) := by
  refine (userdataPacket_calm hnet _ req ref).bind ?_
  rintro ⟨first, up, payload⟩
  exact (followUps_calm hnet group subfunc _ up payload).bind fun _ => Eff.calm_pure _

/-- The payload of a list is long enough to cut SZL ID and index off it, because the parser of the first packet has
    accepted that packet. -/
theorem readSZL_calm (id index : UInt16) : Eff.Calm q P (readSZL net id index) := by
  refine .of_preserves ?_ ?_
  · refine (nextPDURef_calm hnet.unbounded).bind fun ref => (userdata_calm hnet.unbounded _ _ _ _).bind ?_
    rintro ⟨first, payload⟩
    exact Eff.keeps_lift _
  · rintro hq ⟨c, w⟩ h
    exact not_longCall (hnet.bounded hq) _ _ _ (userdata_eq_panic.mp (readSZL_eq_panic.mp h))

/-! #### Areas -/

theorem readChunk_calm (addr : Address) (reqLen : Nat) (first : Bool) (offset : Nat) (result : Bytes) (chunkSize : Nat) :
    Eff.Calm q P (readChunk net addr reqLen first offset result chunkSize) := by
  refine (chunkGate_calm hnet first).handle (fun err => Eff.calm_pure _) fun _ => (nextPDURef_calm hnet).bind fun ref => ?_
  cases hreq : encodeReadVarRequest ref [⟨addr.area, addr.dbNumber, offset, chunkSize⟩] with
  | panic => exact absurd hreq (encodeReadVarRequest_ne_panic _ _)
  | fail err => exact Eff.calm_fail _
  | ok req =>
    refine (sendReceive_calm hnet req ref).handle (fun err => Eff.calm_pure _) ?_
    rintro ⟨param, data⟩
    exact Eff.calm_lift (readAnswer_ne_panic reqLen result chunkSize param data)

theorem readChunks_calm (addr : Address) (reqLen : Nat) (chunks : List Nat) (first : Bool) (offset : Nat)
    (result : Bytes) : Eff.Calm q P (readChunks net addr reqLen chunks first offset result) := by
  induction chunks generalizing first offset result with
  | nil => exact Eff.calm_pure _
  | cons chunkSize chunks ih =>
    refine (readChunk_calm hnet addr reqLen first offset result chunkSize).bind fun r => ?_
    cases r with
    | error out => exact Eff.calm_pure _
    | ok data => exact ih false (offset + chunkSize) (result ++ data)

theorem readArea_calm (addr : Address) : Eff.Calm q P (readArea net addr) := by
  refine (Eff.calm_lift (ne_panic_of_cases (validateAddress_cases addr))).bind fun _ => ?_
  refine (Eff.calm_lift (ne_panic_of_cases (validateRangeEnd_cases _ _))).bind fun _ => Eff.calm_get.bind ?_
  rintro ⟨c, w⟩
  exact readChunks_calm hnet addr _ _ true _ []

/-- The chunk that is cut out of the data lies in it. -/
theorem writeChunk_calm (addr : Address) {data : Bytes} (first : Bool) {offset chunkSize : Nat}
    (hle : offset + chunkSize ≤ data.length) : Eff.Calm q P (writeChunk net addr data first offset chunkSize) := by
  refine (chunkGate_calm hnet first).bind fun _ => ?_
  rw [sliceOf_of_le (by omega) hle]
  refine (Eff.calm_lift (by simp)).bind fun chunk => (nextPDURef_calm hnet).bind fun ref => ?_
  cases hreq : encodeWriteVarRequest ref ⟨addr.area, addr.dbNumber, addr.start + offset, chunk.length⟩ chunk with
  | panic => exact absurd hreq (encodeWriteVarRequest_ne_panic _ _ _)
  | fail err => exact Eff.calm_fail _
  | ok req =>
    refine (sendReceive_calm hnet req ref).bind ?_
    rintro ⟨param, respData⟩
    exact Eff.calm_lift (parseWriteVarResponse_ne_panic param respData)

theorem writeChunks_calm (addr : Address) {data : Bytes} {chunks : List Nat} (first : Bool) {offset : Nat}
    (hle : offset + chunks.sum ≤ data.length) : Eff.Calm q P (writeChunks net addr data chunks first offset) := by
  induction chunks generalizing first offset with
  | nil => exact Eff.calm_pure _
  | cons chunkSize chunks ih =>
    rw [List.sum_cons] at hle
    exact (writeChunk_calm hnet addr first (by omega)).bind fun _ => ih false (by omega)

theorem writeArea_calm (addr : Address) (data : Bytes) : Eff.Calm q P (writeArea net addr data) := by
  refine (Eff.calm_lift (ne_panic_of_cases (validateAddress_cases addr))).bind fun _ => ?_
  refine (Eff.calm_lift (ne_panic_of_cases (validateRangeEnd_cases _ _))).bind fun _ => ?_
  refine (netErr_calm hnet.ctxErr).bind fun _ => Eff.calm_get.bind ?_
  rintro ⟨c, w⟩
  have hsum := (planReadChunks_spec data.length (maxChunkData_pos c.pduSize writeVarRequestOverhead)).1
  exact writeChunks_calm hnet addr true (by omega)

/-! #### Bits -/

theorem readBit_calm (addr : BitAddress) : Eff.Calm q P (readBit net addr) := by
  refine (bitGate_calm hnet addr).bind fun _ => (nextPDURef_calm hnet).bind fun ref => ?_
  refine (Eff.calm_lift (asValidation_ne_panic (encodeReadVarBitRequest_ne_panic _ _))).bind fun req => ?_
  refine (sendReceive_calm hnet req ref).bind ?_
  rintro ⟨param, data⟩
  exact Eff.calm_lift (bitAnswer_ne_panic param data)

theorem writeBit_calm (addr : BitAddress) (value : Bool) : Eff.Calm q P (writeBit net addr value) := by
  refine (bitGate_calm hnet addr).bind fun _ => (nextPDURef_calm hnet).bind fun ref => ?_
  refine (Eff.calm_lift (asValidation_ne_panic (encodeWriteVarBitRequest_ne_panic _ _ _))).bind fun req => ?_
  refine (sendReceive_calm hnet req ref).bind ?_
  rintro ⟨param, respData⟩
  exact Eff.calm_lift (parseWriteVarResponse_ne_panic param respData)

/-! #### SZL lists -/

theorem identify_calm : Eff.Calm q P (identify net) := by
  have hmodule (data : Bytes) : Atomic applyModuleID data := takes_applyModuleIDRecord.atomic (fun _ => rfl) data
  have hcomponent (data : Bytes) : Atomic applyComponentID data :=
    takes_applyComponentIDRecord.atomic (fun _ => rfl) data
  have hlist (id : UInt16) : Eff.Calm q P (readSZL net id 0 >>= fun resp => pure resp.data) :=
    (readSZL_calm hnet id 0).bind fun _ => Eff.calm_pure _
  refine (identifyWith_calm (hlist szlModuleID) _ (fun data => (hmodule data).inBounds) _ _).bind ?_
  rintro ⟨info, errs⟩
  refine (identifyWith_calm (hlist szlComponentID) _ (fun data => (hcomponent data).inBounds) _ _).bind ?_
  rintro ⟨info, errs⟩
  dsimp only
  split <;> exact Eff.calm_pure _

theorem getCPUState_calm : Eff.Calm q P (getCPUState net) := by
  refine (readSZL_calm hnet _ _).bind fun resp => (Eff.calm_lift (szlRecords_ne_panic _)).bind fun recs => ?_
  cases recs with
  | nil => exact Eff.calm_fail _
  | cons r recs =>
    refine .ite (fun _ => Eff.calm_fail _) fun hlen => ?_
    rw [indexAt_of_lt (by omega)]
    exact (Eff.calm_lift (by simp)).bind fun _ => Eff.calm_pure _

theorem getProtectionLevel_calm : Eff.Calm q P (getProtectionLevel net) := by
  refine (readSZL_calm hnet _ _).bind fun resp => (Eff.calm_lift (szlRecords_ne_panic _)).bind fun recs => ?_
  cases recs with
  | nil => exact Eff.calm_fail _
  | cons r recs =>
    refine .ite (fun _ => Eff.calm_fail _) fun hlen => ?_
    rw [wordAt_of_le (by omega)]
    refine (Eff.calm_lift (by simp)).bind fun level => ?_
    refine .ite (fun _ => Eff.calm_pure _) fun _ => .ite (fun _ => Eff.calm_pure _) fun _ => ?_
    exact .ite (fun _ => Eff.calm_pure _) fun _ => Eff.calm_fail _

theorem readDiagBufferRaw_calm : Eff.Calm q P (readDiagBufferRaw net) :=
  (readSZL_calm hnet _ _).bind fun _ => Eff.calm_pure _

theorem readDiagBuffer_calm : Eff.Calm q P (readDiagBuffer net) :=
  (readDiagBufferRaw_calm hnet).handle (fun _ => Eff.calm_pure _) fun raw => Eff.calm_lift (diagBuffer_ne_panic raw)

/-! #### Blocks -/

theorem listBlocks_calm (bt : UInt8) : Eff.Calm q P (listBlocks net bt) := by
  refine (nextPDURef_calm hnet).bind fun ref => (userdata_calm hnet _ _ _ _).bind ?_
  rintro ⟨first, payload⟩
  exact Eff.calm_lift (blocksOf_ne_panic bt payload)

theorem blockCounts_calm : Eff.Calm q P (Client.blockCounts net) := by
  refine (nextPDURef_calm hnet).bind fun ref => (userdata_calm hnet _ _ _ _).bind ?_
  rintro ⟨first, payload⟩
  exact Eff.calm_lift (blockCountsOf_ne_panic payload)

theorem getBlockInfo_calm (bt : UInt8) (num : Int) : Eff.Calm q P (getBlockInfo net bt num) := by
  refine .ite (fun _ => Eff.calm_fail _) fun _ => (nextPDURef_calm hnet).bind fun ref => ?_
  refine (Eff.calm_lift (asValidation_ne_panic (encodeBlockInfoRequest_ne_panic _ _ _))).bind fun req => ?_
  refine (userdata_calm hnet _ _ _ _).bind ?_
  rintro ⟨first, payload⟩
  exact Eff.calm_lift (blockInfoOf_ne_panic bt num payload)

theorem listBlockTypes_calm (types : List (UInt8 × String)) (all : List BlockInfo) (errs : List GoError) :
    Eff.Calm q P (listBlockTypes net types all errs) := by
  induction types generalizing all errs with
  | nil => exact Eff.calm_pure _
  | cons type types ih =>
    obtain ⟨bt, name⟩ := type
    exact (listBlocks_calm hnet bt).handle (fun _ => ih _ _) fun _ => ih _ _

/-! #### Uploads -/

/-- The tries end with an error that is there: a chunk that was tried has one. -/
theorem uploadChunk_calm (uploadID : UInt32) (i received : Nat) {left : Nat} {lastErr : Option GoError}
    (h : left ≠ 0 ∨ lastErr ≠ none) : Eff.Calm q P (uploadChunk net uploadID i received left lastErr) := by
  induction left generalizing lastErr with
  | zero =>
    cases lastErr with
    | none => simp at h
    | some err => exact Eff.calm_fail _
  | succ left ih =>
    have hfailed (err : GoError) : Eff.Calm q P (if isUploadProtocolError err then
        Eff.fail (.wrap (s!"upload chunk {i}: " ++ err.error) err)
        else uploadChunk net uploadID i received left (some err)) :=
      .ite (fun _ => Eff.calm_fail _) fun _ => ih (.inr (by simp))
    refine (netErr_calm hnet.ctxErr).bind fun _ => (nextPDURef_calm hnet).bind fun ref => ?_
    refine (sendReceive_calm hnet _ _).handle hfailed ?_
    rintro ⟨param, data⟩
    have hparse := asProtocolFailure_ne_panic "parse upload response" (parseUploadResponse_ne_panic param data)
    dsimp only
    split
    · exact hfailed _
    · exact Eff.calm_lift hparse

theorem uploadChunks_calm (uploadID : UInt32) (left i : Nat) (payload : Bytes) (chunkCount : Nat) :
    Eff.Calm q P (uploadChunks net uploadID left i payload chunkCount) := by
  induction left generalizing i payload chunkCount with
  | zero => exact Eff.calm_fail _
  | succ left ih =>
    refine (uploadChunk_calm hnet uploadID i payload.length (.inl (by decide))).bind fun chunk => ?_
    exact .ite (fun _ => Eff.calm_pure _) fun _ => ih _ _ _

theorem uploadBlock_calm (bt : UInt8) (num : Int) : Eff.Calm q P (uploadBlock net bt num) := by
  refine .ite (fun _ => Eff.calm_fail _) fun _ => (nextPDURef_calm hnet).bind fun ref => ?_
  refine (Eff.calm_lift (asValidation_ne_panic (encodeStartUploadRequest_ne_panic _ _ _))).bind fun req => ?_
  refine (sendReceive_calm hnet req ref).bind ?_
  rintro ⟨param, data⟩
  refine (Eff.calm_lift (asProtocolFailure_ne_panic _ (parseStartUploadResponse_ne_panic param))).bind fun start => ?_
  have hend : Eff.Calm q P (endUpload net start.uploadID) :=
    (nextPDURef_calm hnet).bind fun _ => (sendReceive_calm hnet _ _).bind fun _ => Eff.calm_pure _
  refine hend.deferred ((uploadChunks_calm hnet _ _ _ _ _).bind ?_)
  rintro ⟨payload, chunkCount⟩
  exact .ite (fun _ => Eff.calm_fail _) fun _ => Eff.calm_pure _

/-! #### Scans -/

theorem probeRead_calm (addr : Address) : Eff.Calm q P (probeRead net addr) :=
  (readArea_calm hnet addr).handle (fun _ => Eff.calm_pure _) fun _ => Eff.calm_pure _

theorem probeReads_calm (addr : Address) (pause : Bool) (left : Nat) (first : Bool) :
    Eff.Calm q P (probeReads net addr pause left first) := by
  induction left generalizing first with
  | zero => exact Eff.calm_pure _
  | succ left ih =>
    have hpause : Eff.Calm q P (if pause && !first then netErr net.wait else pure ()) :=
      .ite (fun _ => netErr_calm hnet.wait) fun _ => Eff.calm_pure _
    refine (netErr_calm hnet.ctxErr).handle (fun _ => Eff.calm_pure _) fun _ => ?_
    refine hpause.handle (fun _ => Eff.calm_pure _) fun _ => (probeRead_calm hnet addr).bind fun res => ?_
    refine (ih false).bind fun r => ?_
    cases r <;> exact Eff.calm_pure _

theorem probeOneOffset_calm (req : RangeProbeRequest) (offset probeSize : Int64) :
    Eff.Calm q P (probeOneOffset net req offset probeSize) := by
  refine (probeReads_calm hnet _ _ _ _).bind fun r => ?_
  cases r with
  | error err => exact Eff.calm_pure _
  | ok repeated =>
    dsimp only
    cases repeated.getLast? with
    | none => exact Eff.calm_pure _
    | some last =>
      refine .ite (fun _ => (probeReads_calm hnet _ _ _ _).bind fun r => ?_) fun _ => Eff.calm_pure _
      cases r <;> exact Eff.calm_pure _

theorem scanOffsets_calm (req : RangeProbeRequest) (probeSize : Int64) (offsets : List Int64) :
    Eff.Calm q P (scanOffsets net req probeSize offsets) := by
  induction offsets with
  | nil => exact Eff.calm_pure _
  | cons offset offsets ih =>
    refine (netErr_calm hnet.ctxErr).handle (fun _ => Eff.calm_pure _) fun _ => ?_
    refine (probeOneOffset_calm hnet req offset probeSize).bind fun obs => ih.bind fun r => ?_
    cases r <;> exact Eff.calm_pure _

theorem scanAt_calm (req : RangeProbeRequest) (offsets : List Int64) : Eff.Calm q P (scanAt net req offsets) := by
  refine Eff.calm_get.bind ?_
  rintro ⟨c, w⟩
  refine .ite (fun _ => Eff.calm_fail _) fun _ => (scanOffsets_calm hnet req _ offsets).bind fun r => ?_
  cases r <;> exact Eff.calm_pure _

theorem probeReadableRanges_calm (fuel : Nat) (req : RangeProbeRequest) :
    Eff.Calm q P (probeReadableRanges net fuel req) := by
  refine (Eff.calm_lift (ne_panic_of_cases (validateRangeProbeRequest_cases req))).bind fun _ => ?_
  cases probeOffsets req.stop req.scanStep fuel req.start with
  | none => exact Eff.calm_pure _
  | some offsets => exact (scanAt_calm hnet req offsets).bind fun _ => Eff.calm_pure _

/-! #### Any call -/

theorem perform_calm (call : ClientCall) : Eff.Calm q P (call.perform net) := by
  cases call with
  | readArea addr => exact readArea_calm hnet addr
  | writeArea addr data => exact writeArea_calm hnet addr data
  | readBit addr => exact readBit_calm hnet addr
  | writeBit addr value => exact writeBit_calm hnet addr value
  | identify => exact identify_calm hnet
  | getCPUState => exact getCPUState_calm hnet
  | getProtectionLevel => exact getProtectionLevel_calm hnet
  | readDiagBufferRaw => exact readDiagBufferRaw_calm hnet
  | readDiagBuffer => exact readDiagBuffer_calm hnet
  | listBlocks bt => exact listBlocks_calm hnet bt
  | blockCounts => exact blockCounts_calm hnet
  | listAllBlocks => exact listBlockTypes_calm hnet _ [] []
  | getBlockInfo bt num => exact getBlockInfo_calm hnet bt num
  | uploadBlock bt num => exact uploadBlock_calm hnet bt num
  | probeReadableRanges fuel req => exact probeReadableRanges_calm hnet fuel req

end Calls

/-! ### Sessions -/

section Sessions
variable {γ σ : Type} {q : Prop} (env : Env γ σ) (opts : Options)

theorem worldErr_calm {P : σ → Prop} {op : σ → Option GoError × σ} (h : ∀ w, P w → P (op w).2) :
    Eff.Calm q P (worldErr op) := by
  intro w hw
  have hop := h w hw
  unfold worldErr
  rcases hrun : op w with ⟨_ | err, w'⟩ <;> rw [hrun] at hop <;> exact ⟨hop, by simp⟩

theorem worldVal_calm {α : Type} {P : σ → Prop} {op : σ → Except GoError α × σ} (h : ∀ w, P w → P (op w).2) :
    Eff.Calm q P (worldVal op) := by
  intro w hw
  have hop := h w hw
  unfold worldVal
  rcases hrun : op w with ⟨err | a, w'⟩ <;> rw [hrun] at hop <;> exact ⟨hop, by simp⟩

theorem performS7Setup_calm {P : σ → Prop} (conn : γ) (hctx : ∀ w, P w → P (env.ctxErr w).2)
    (hwrite : ∀ req w, P w → P (env.writeTSDU conn req w).2) (hread : ∀ w, P w → P (env.readTSDU conn w).2)
    (ref : UInt16) (maxAmqCalling maxAmqCalled maxPDU : Int) :
    Eff.Calm q P (performS7Setup env conn ref maxAmqCalling maxAmqCalled maxPDU) := by
  refine (worldErr_calm hctx).bind fun _ => ?_
  refine (Eff.calm_lift (asValidation_ne_panic (encodeSetupCommRequest_ne_panic _ _ _ _))).bind fun req => ?_
  refine (worldErr_calm (hwrite req)).bind fun _ => (worldVal_calm hread).bind fun s7Data => ?_
  exact Eff.calm_lift (setupAnswer_ne_panic s7Data ref)

theorem connectionTSAPs_ne_panic (rack slot : Int) : connectionTSAPs opts rack slot ≠ .panic := by
  unfold connectionTSAPs
  split
  · simp
  · exact Outcome.bind_ne_panic (asValidation_ne_panic (buildTSAP_ne_panic _ _ _)) fun _ _ =>
      Outcome.bind_ne_panic (asValidation_ne_panic (buildTSAP_ne_panic _ _ _)) fun _ _ => by simp

theorem handshake_calm (rack slot : Int) : Eff.Calm q (fun _ => True) (handshake env opts rack slot) := by
  refine (Eff.calm_lift (connectionTSAPs_ne_panic opts rack slot)).bind ?_
  rintro ⟨localTSAP, remoteTSAP⟩
  refine (worldVal_calm fun _ h => h).bind fun conn => ?_
  have hsetup : Eff.Calm q (fun _ => True)
      (performS7Setup env conn 1 opts.maxAmqCalling opts.maxAmqCalled opts.maxPDU) :=
    performS7Setup_calm env conn (fun _ h => h) (fun _ _ h => h) (fun _ h => h) _ _ _ _
  refine hsetup.handle (fun err => ?_) fun _ => ?_
  · exact (Eff.calm_modify fun _ h => h).bind fun _ => Eff.calm_fail _
  · exact Eff.calm_pure _

theorem connectOnce_calm (rack slot : Int) : Eff.Calm q (fun _ => True) (connectOnce env opts rack slot) := by
  have hswap (h : Handshake γ) : Eff.Calm q (fun _ => True) (swapIn env h) := by
    rintro ⟨s, w⟩ -
    exact ⟨trivial, by simp [swapIn]⟩
  exact (handshake_calm env opts rack slot).onSnd.bind fun h => (hswap h).bind fun _ => Eff.calm_pure _

theorem tryRackSlots_calm (failure : String) (pairs : List (Int × Int)) :
    Eff.Calm q (fun _ => True) (tryRackSlots env opts failure pairs) := by
  induction pairs with
  | nil => exact Eff.calm_fail _
  | cons pair pairs ih =>
    obtain ⟨rack, slot⟩ := pair
    have hctx : Eff.Calm q (fun _ => True) (worldErr env.ctxErr) := worldErr_calm fun _ h => h
    exact hctx.onSnd.bind fun _ =>
      (connectOnce_calm env opts rack slot).handle (fun _ => ih) fun _ => Eff.calm_pure _

theorem connect_calm : Eff.Calm q (fun _ => True) (connect env opts) := by
  refine (Eff.calm_lift opts.validate_ne_panic).bind fun _ => .ite (fun _ => ?_) fun _ => connectOnce_calm env opts _ _
  exact .ite (fun _ => tryRackSlots_calm env opts _ _) fun _ => tryRackSlots_calm env opts _ _

theorem closeSession_calm : Eff.Calm q (fun _ => True) (closeSession env) := by
  rintro ⟨s, w⟩ -
  refine ⟨trivial, fun _ => ?_⟩
  unfold closeSession
  dsimp only
  cases s.conn with
  | none => simp
  | some conn =>
    dsimp only
    split <;> simp

/-- Whatever the client does next, it does not panic. -/
structure NeverPanics (st : ClientSession γ × σ) : Prop where
  connect : (connect env opts st).1 ≠ .panic
  close : (closeSession env st).1 ≠ .panic
  call : ∀ call : ClientCall, (onClient env opts call.perform st).1 ≠ .panic

/-- A client of any peer, in any state: as long as no TSDU has more than 65535 bytes, connecting, closing and all calls
    return. -/
theorem client_never_panics (hread : ∀ conn w pdu, (env.readTSDU conn w).1 = .ok pdu → pdu.length ≤ 65535)
    (st : ClientSession γ × σ) : NeverPanics env opts st where
  connect := (connect_calm env opts st trivial).2 trivial
  close := (closeSession_calm env st trivial).2 trivial
  call call := by
    obtain ⟨s, w⟩ := st
    have hnet : (env.net s.conn).Steady True fun _ => True := by
      refine ⟨fun _ _ h => h, fun _ _ h => h, fun _ _ _ h => h, fun _ _ h => h, fun _ _ _ h => h, fun _ w pdu hpdu => ?_⟩
      cases hconn : s.conn with
      | none =>
        rw [hconn] at hpdu
        cases hpdu
      | some conn =>
        rw [hconn] at hpdu
        exact hread conn w pdu hpdu
    exact (perform_calm hnet call (s.client opts, w) trivial).2 trivial

end Sessions

/-- A peer that takes every request and answers with as many bytes as a TSDU may have. -/
def babbler : Env Unit Unit where
  ctxErr w := (none, w)
  wait w := (none, w)
  dialCOTP _ _ w := (.ok (), w)
  writeTSDU _ _ w := (none, w)
  readTSDU _ w := (.ok (List.replicate 65535 0x32), w)
  close _ w := (none, w)

theorem client_never_panics_babbler : NeverPanics babbler {} ({ conn := some () }, ()) :=
  client_never_panics babbler {} (fun _ _ pdu h => by rw [← Except.ok.inj h, List.length_replicate]) _

end S7Comm
