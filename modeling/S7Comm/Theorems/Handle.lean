import S7Comm.Theorems.WriteVar

/-! One request. A PDU whose header cannot be read is dropped; every other PDU is answered, and `Answered` lists
    the answers together with the session each leaves behind. What holds of every request is then a case
    analysis over this list. -/

namespace S7Comm
open Go

/-! ### Readable requests -/

/-- The 16-bit length that the header declares at offset `i`. -/
def declaredLength (req : Bytes) (i : Nat) : Nat := (be16 (req.getD i 0) (req.getD (i + 1) 0)).toNat

/-- The header is cut off, is not one of S7, or declares another length than the PDU has. -/
def Unreadable (req : Bytes) : Prop :=
  req.length < 10 ∨ req[0]? ≠ some 0x32 ∨ 10 + declaredLength req 6 + declaredLength req 8 ≠ req.length

def requestRosctr (req : Bytes) : UInt8 := req.getD 1 0

def requestRef (req : Bytes) : UInt16 := be16 (req.getD 4 0) (req.getD 5 0)

def paramSection (req : Bytes) : Bytes := (req.drop 10).take (declaredLength req 6)

def dataSection (req : Bytes) : Bytes := req.drop (10 + declaredLength req 6)

/-- A readable job with this function code. -/
def IsJob (req : Bytes) (fn : UInt8) : Prop :=
  ¬Unreadable req ∧ requestRosctr req = rosctrJob ∧ (paramSection req)[0]? = some fn

section Readable
variable {cfg : ServerConfig} {req : Bytes}

theorem getD_of_lt {i : Nat} (h : i < req.length) : req.getD i 0 = req[i] := by simp [h]

theorem handle_eq (h : 10 ≤ req.length) (h0 : req[0]? = some 0x32) :
    handle cfg req =
      if 10 + declaredLength req 6 + declaredLength req 8 ≠ req.length then pure (none, false)
      else (do
        let param ← sliceOf req 10 (10 + declaredLength req 6)
        let data ← sliceOf req (10 + declaredLength req 6) req.length
        dispatch cfg (requestRosctr req) (requestRef req) param data) := by
  have hfirst : indexAt req 0 = .ok 0x32 := index_eq_ok.mpr h0
  funext s
  unfold handle
  rw [if_neg (show ¬req.length < s7HeaderSize from Nat.not_lt.mpr h), hfirst, indexAt_of_lt (by omega),
    wordAt_of_le (by omega), wordAt_of_le (by omega), wordAt_of_le (by omega), ← getD_of_lt (by omega)]
  rfl

theorem handle_unreadable (h : Unreadable req) (s : Session) : handle cfg req s = (.ok (none, false), s) := by
  by_cases hlen : req.length < 10
  · unfold handle
    rw [if_pos (show req.length < s7HeaderSize from hlen)]
    rfl
  rw [Nat.not_lt] at hlen
  by_cases h0 : req[0]? = some 0x32
  · have hdecl := (h.resolve_left (Nat.not_lt.mpr hlen)).resolve_left (not_not.mpr h0)
    rw [handle_eq hlen h0, if_pos hdecl]
    rfl
  · have hfirst : indexAt req 0 = .ok req[0] := indexAt_of_lt (by omega)
    rw [List.getElem?_eq_getElem (by omega)] at h0
    unfold handle
    rw [if_neg (show ¬req.length < s7HeaderSize from Nat.not_lt.mpr hlen), hfirst, Eff.bind_ok (Eff.lift_apply _ _),
      if_pos (fun he => h0 (congrArg some he))]
    rfl

theorem handle_readable (h : ¬Unreadable req) (s : Session) :
    handle cfg req s = dispatch cfg (requestRosctr req) (requestRef req) (paramSection req) (dataSection req) s := by
  simp only [Unreadable, not_or, not_not, Nat.not_lt] at h
  obtain ⟨hlen, h0, hdecl⟩ := h
  rw [handle_eq hlen h0, if_neg (not_not.mpr hdecl), sliceOf_of_le (by omega) (by omega),
    Eff.bind_ok (Eff.lift_apply _ _), sliceOf_of_le (by omega) (by omega), Eff.bind_ok (Eff.lift_apply _ _)]
  simp [paramSection, dataSection, List.take_of_length_le]

end Readable

/-! ### Answers -/

/-- The answers to a readable PDU and the session after each. -/
inductive Answered (cfg : ServerConfig) (s : Session) (rosctr : UInt8) (ref : UInt16) (param data : Bytes) :
    Bytes → Session → Prop
  /-- Unsupported or malformed (0x8104), or an answer past the PDU (0x8500). -/
  | refused {cls code : UInt8} {fn : Bytes} (hcls : cls = errClassApp ∨ cls = errClassSupplies) (hfn : fn.length ≤ 1)
      (hnot : ∀ job, rosctr = rosctrJob → parseWriteVarRequest param data ≠ .ok job) :
      Answered cfg s rosctr ref param data (ackData ref cls code fn []) s
  | userdata {resp item : Bytes} (hrosctr : rosctr = rosctrUserdata) (hresp : resp.length = 12)
      (hitem : item.length = 4) : Answered cfg s rosctr ref param data (message rosctrUserdata ref resp item) s
  | setup {resp : Bytes} {req : SetupCommRequest} (hrosctr : rosctr = rosctrJob)
      (hparse : parseSetupCommRequest param = .ok req) (hresp : resp.length = 8) :
      Answered cfg s rosctr ref param data (ackData ref 0 0 resp [])
        { s with pduSize := min req.pduSize cfg.maxPDUSize }
  | read {specs : List VarSpec} {results : List ReadVarResult} (hrosctr : rosctr = rosctrJob)
      (hparse : parseReadVarRequest param = .ok specs) (hfits : 14 + readVarResultsSize results ≤ s.pduSize)
      (hle : readVarResultsSize results ≤ 65535) :
      Answered cfg s rosctr ref param data
        (ackData ref 0 0 [funcReadVar, UInt8.ofNat results.length] (readVarResultBytes results)) s
  | write {specs : List VarSpec} {items : List WriteVarData} (hrosctr : rosctr = rosctrJob)
      (hparse : parseWriteVarRequest param data = .ok (specs, items)) :
      Answered cfg s rosctr ref param data
        (ackData ref 0 0 [funcWriteVar, UInt8.ofNat specs.length] (writeCodes s.mem.shape specs items))
        { s with mem := storeItems s.mem (acceptedItems s.mem.shape specs items) }

theorem parseSetupCommRequest_function {param : Bytes} {req : SetupCommRequest}
    (h : parseSetupCommRequest param = .ok req) : param[0]? = some funcSetupComm := by
  unfold parseSetupCommRequest at h
  split at h
  · cases h
  · obtain ⟨fn, hfn, h⟩ := Outcome.bind_eq_ok.mp h
    split at h
    · cases h
    · rename_i hne
      rw [not_not.mp hne] at hfn
      exact index_eq_ok.mp hfn

theorem parseWriteVarRequest_function {param data : Bytes} {job : List VarSpec × List WriteVarData}
    (h : parseWriteVarRequest param data = .ok job) : param[0]? = some funcWriteVar := by
  obtain ⟨specs, hspecs, -⟩ := Outcome.bind_eq_ok.mp h
  exact (parseVarSpecs_length hspecs).2.2

section Dispatch
variable {cfg : ServerConfig} {s : Session} {rosctr : UInt8} {ref : UInt16} {param data : Bytes}

theorem notImplemented_eq (ref : UInt16) (param : Bytes) :
    notImplemented ref param = .ok (some (ackData ref errClassApp errCodeNotImpl (param.take 1) [])) := by
  have hfn : functionCode param = .ok (param.take 1) := by
    unfold functionCode
    cases param <;> simp [sliceOf, slice]
  unfold notImplemented
  rw [hfn, Outcome.ok_bind, encodeAckData_eq (by simp) (by simp)]
  rfl

theorem answered_notImplemented (h : ∀ job, rosctr = rosctrJob → parseWriteVarRequest param data ≠ .ok job) :
    Answered cfg s rosctr ref param data (ackData ref errClassApp errCodeNotImpl (param.take 1) []) s :=
  .refused (.inl rfl) (by simp) h

theorem userdataNotImplemented_spec (cfg : ServerConfig) (s : Session) (hr : rosctr = rosctrUserdata) :
    ∃ out, userdataNotImplemented ref param = .ok (some out) ∧ Answered cfg s rosctr ref param data out s := by
  have hjob : ∀ job, rosctr = rosctrJob → parseWriteVarRequest param data ≠ .ok job := fun _ h =>
    absurd (hr.symm.trans h) (by decide)
  unfold userdataNotImplemented
  by_cases hlen : param.length < 8
  · rw [if_pos hlen, notImplemented_eq]
    exact ⟨_, rfl, answered_notImplemented hjob⟩
  rw [if_neg hlen, indexAt_of_lt (by omega), indexAt_of_lt (by omega), indexAt_of_lt (by omega)]
  simp only [Outcome.ok_bind]
  split
  · rw [notImplemented_eq]
    exact ⟨_, rfl, answered_notImplemented hjob⟩
  · rw [indexAt_of_lt (by omega), indexAt_of_lt (by omega), indexAt_of_lt (by omega)]
    simp only [Outcome.ok_bind]
    rw [encodeS7Header_eq (by simp) (by simp)]
    exact ⟨_, rfl, .userdata hr rfl rfl⟩

theorem answerJob_ok {job : Eff Session GoError Bytes} {s' : Session} {out : Bytes} (h : job s = (.ok out, s')) :
    answerJob ref param job s = (.ok (some out, true), s') := by
  unfold answerJob
  rw [Eff.bind_ok (Eff.attempt_ok h)]
  rfl

theorem answerJob_fail {job : Eff Session GoError Bytes} {s' : Session} {e : GoError} (h : job s = (.fail e, s')) :
    answerJob ref param job s =
      (.ok (some (ackData ref errClassApp errCodeNotImpl (param.take 1) []), true), s') := by
  unfold answerJob
  rw [Eff.bind_ok (Eff.attempt_fail h)]
  dsimp only
  rw [notImplemented_eq]
  rfl

/-- The parameter section of a setup answer. -/
def setupParam (calling called size : Nat) : Bytes :=
  [funcSetupComm, 0] ++ putUint16 (UInt16.ofNat calling) ++ putUint16 (UInt16.ofNat called) ++
    putUint16 (UInt16.ofNat size)

theorem encodeSetupCommResponse_eq (ref : UInt16) {calling called size : Nat} (h₁ : calling ≤ 65535)
    (h₂ : called ≤ 65535) (h₃ : size ≤ 65535) :
    encodeSetupCommResponse ref calling called size = .ok (ackData ref 0 0 (setupParam calling called size) []) := by
  unfold encodeSetupCommResponse
  rw [checkedUint16_natCast h₁, checkedUint16_natCast h₂, checkedUint16_natCast h₃]
  exact encodeAckData_eq (by simp) (by simp)

theorem setup_eq (cfg : ServerConfig) (ref : UInt16) (s : Session) {req : SetupCommRequest}
    (h : parseSetupCommRequest param = .ok req) :
    setup cfg ref param s =
      (.ok (ackData ref 0 0 (setupParam (max 1 (min req.maxAmqCalling maxAmQ)) (max 1 (min req.maxAmqCalled maxAmQ))
        (min req.pduSize cfg.maxPDUSize)) []), { s with pduSize := min req.pduSize cfg.maxPDUSize }) := by
  have hsize : min req.pduSize cfg.maxPDUSize ≤ 65535 :=
    Nat.le_trans (Nat.min_le_left _ _) (parseSetupCommRequest_pduSize_le h)
  have hgrant : ∀ n : Nat, max 1 (min n maxAmQ) ≤ 65535 := fun n => by
    have : maxAmQ = 2 := rfl
    omega
  unfold setup
  rw [h, Eff.bind_ok (Eff.lift_apply _ _), Eff.bind_ok (Eff.modify_apply _ _),
    encodeSetupCommResponse_eq ref (hgrant req.maxAmqCalling) (hgrant req.maxAmqCalled) hsize]
  rfl

/-- Setup Communication is granted or refused; it is refused before the session takes the size. -/
theorem setup_spec (cfg : ServerConfig) (ref : UInt16) (param : Bytes) (s : Session) :
    (∃ e, setup cfg ref param s = (.fail e, s)) ∨
      ∃ req resp, parseSetupCommRequest param = .ok req ∧ resp.length = 8 ∧
        setup cfg ref param s = (.ok (ackData ref 0 0 resp []), { s with pduSize := min req.pduSize cfg.maxPDUSize }) := by
  cases hparse : parseSetupCommRequest param with
  | panic => exact absurd hparse (parseSetupCommRequest_ne_panic param)
  | fail e =>
    refine .inl ⟨e, ?_⟩
    unfold setup
    rw [hparse]
    exact Eff.bind_fail (Eff.lift_apply _ _)
  | ok req => exact .inr ⟨req, _, rfl, rfl, setup_eq cfg ref s hparse⟩

/-- Read Var is refused or answered within the PDU. -/
theorem read_spec (cfg : ServerConfig) (s : Session) (ref : UInt16) (data : Bytes) (hr : rosctr = rosctrJob)
    (hfn : param[0]? = some funcReadVar) :
    (∃ e, read s ref param = .fail e) ∨
      ∃ out, read s ref param = .ok out ∧ Answered cfg s rosctr ref param data out s := by
  have hjob : ∀ job, rosctr = rosctrJob → parseWriteVarRequest param data ≠ .ok job := fun job _ h => by
    have := hfn.symm.trans (parseWriteVarRequest_function h)
    exact absurd this (by decide)
  cases hparse : parseReadVarRequest param with
  | panic => exact absurd hparse (parseVarSpecs_ne_panic _ _)
  | fail e => exact .inl ⟨e, by unfold read; rw [hparse]; rfl⟩
  | ok specs =>
    obtain ⟨ranges, results, -, hlen, hall, hread⟩ := read_eq s ref hparse
    rw [hread]
    by_cases hgt : s.pduSize < 14 + readVarResultsSize results
    · rw [if_pos hgt]
      exact .inr ⟨_, rfl, .refused (.inr rfl) (by simp) hjob⟩
    rw [if_neg hgt]
    have hcount : results.length ≤ 255 := by
      rw [← hall.length_eq, List.length_zip, hlen, Nat.min_self]
      exact (parseVarSpecs_length hparse).2.1
    unfold encodeReadVarResponse
    rw [if_neg (by omega)]
    by_cases hbig : (readVarResultBytes results).length ≤ 65535
    · rw [encodeAckData_eq (by simp) hbig]
      rw [length_readVarResultBytes] at hbig
      exact .inr ⟨_, rfl, .read hr hparse (by omega) hbig⟩
    · obtain ⟨e, he, -⟩ := encodeAckData_fail (.inr (Nat.not_le.mp hbig))
      exact .inl ⟨e, he⟩

theorem dispatch_readVar (hfn : param[0]? = some funcReadVar) :
    dispatch cfg rosctrJob ref param data s = answerJob ref param (do read (← Eff.get) ref param) s := by
  have hpos : param.length ≠ 0 := fun hnil => by simp [List.eq_nil_of_length_eq_zero hnil] at hfn
  unfold dispatch
  rw [if_neg (by decide), if_neg (by simp [hpos]), show indexAt param 0 = .ok funcReadVar from index_eq_ok.mpr hfn,
    Eff.bind_ok (Eff.lift_apply _ _), if_neg (by decide), if_pos rfl]

theorem dispatch_read (hfn : param[0]? = some funcReadVar) {out : Bytes} (h : read s ref param = .ok out) :
    dispatch cfg rosctrJob ref param data s = (.ok (some out, true), s) := by
  rw [dispatch_readVar hfn]
  refine answerJob_ok ?_
  rw [Eff.bind_ok (Eff.get_apply s), h]
  rfl

theorem dispatch_read_fail (hfn : param[0]? = some funcReadVar) {e : GoError} (h : read s ref param = .fail e) :
    dispatch cfg rosctrJob ref param data s =
      (.ok (some (ackData ref errClassApp errCodeNotImpl (param.take 1) []), true), s) := by
  have hjob : (do read (← Eff.get) ref param : Eff Session GoError Bytes) s = (.fail e, s) := by
    rw [Eff.bind_ok (Eff.get_apply s), h]
    rfl
  rw [dispatch_readVar hfn, answerJob_fail hjob]

theorem dispatch_write (hfn : param[0]? = some funcWriteVar) {out : Bytes} {mem : Memory}
    (h : write ref param data s.mem = (.ok out, mem)) :
    dispatch cfg rosctrJob ref param data s = (.ok (some out, true), { s with mem }) := by
  have hpos : param.length ≠ 0 := fun hnil => by simp [List.eq_nil_of_length_eq_zero hnil] at hfn
  unfold dispatch
  rw [if_neg (by decide), if_neg (by simp [hpos]), show indexAt param 0 = .ok funcWriteVar from index_eq_ok.mpr hfn,
    Eff.bind_ok (Eff.lift_apply _ _), if_neg (by decide), if_neg (by decide), if_pos rfl]
  refine answerJob_ok ?_
  rw [onMemory, h]

/-- Every readable PDU is answered. -/
theorem dispatch_spec (cfg : ServerConfig) (s : Session) (rosctr : UInt8) (ref : UInt16) (param data : Bytes) :
    ∃ out s', dispatch cfg rosctr ref param data s = (.ok (some out, true), s') ∧
      Answered cfg s rosctr ref param data out s' := by
  unfold dispatch
  by_cases hu : rosctr = rosctrUserdata
  · obtain ⟨out, hout, hans⟩ := userdataNotImplemented_spec cfg s hu
    rw [if_pos hu, hout]
    exact ⟨out, s, rfl, hans⟩
  rw [if_neg hu]
  by_cases hj : rosctr ≠ rosctrJob ∨ param.length = 0
  · rw [if_pos hj, notImplemented_eq]
    refine ⟨_, s, rfl, answered_notImplemented fun job hr h => ?_⟩
    have hfn := parseWriteVarRequest_function h
    rw [List.eq_nil_of_length_eq_zero (hj.resolve_left (not_not.mpr hr))] at hfn
    cases hfn
  rw [if_neg hj]
  obtain ⟨hr, hne⟩ := not_or.mp hj
  rw [not_not] at hr
  have hpos : 0 < param.length := Nat.pos_of_ne_zero hne
  have hfn : param[0]? = some param[0] := List.getElem?_eq_getElem hpos
  rw [indexAt_of_lt hpos, Eff.bind_ok (Eff.lift_apply _ _)]
  have hnot : param[0] ≠ funcWriteVar → ∀ job, rosctr = rosctrJob → parseWriteVarRequest param data ≠ .ok job :=
    fun hw job _ h => hw (Option.some.inj (hfn.symm.trans (parseWriteVarRequest_function h)))
  by_cases hs : param[0] = funcSetupComm
  · rw [if_pos hs]
    rcases setup_spec cfg ref param s with ⟨e, he⟩ | ⟨req, resp, hparse, hresp, hok⟩
    · exact ⟨_, _, answerJob_fail he, answered_notImplemented (hnot (by rw [hs]; decide))⟩
    · exact ⟨_, _, answerJob_ok hok, .setup hr hparse hresp⟩
  rw [if_neg hs]
  by_cases hrd : param[0] = funcReadVar
  · rw [if_pos hrd]
    rcases read_spec cfg s ref data hr (hrd ▸ hfn) with ⟨e, he⟩ | ⟨out, hout, hans⟩
    · exact ⟨_, s, answerJob_fail (by rw [Eff.bind_ok (Eff.get_apply s), he]; rfl),
        answered_notImplemented (hnot (by rw [hrd]; decide))⟩
    · exact ⟨_, s, answerJob_ok (by rw [Eff.bind_ok (Eff.get_apply s), hout]; rfl), hans⟩
  rw [if_neg hrd]
  by_cases hw : param[0] = funcWriteVar
  · rw [if_pos hw]
    rcases parseWriteVarRequest_spec param data with ⟨e, he⟩ | ⟨specs, items, hparse, -⟩
    · have hfail := write_fail s.mem ref he
      exact ⟨_, s, answerJob_fail (by rw [onMemory, hfail]), answered_notImplemented fun job _ h => by simp [he] at h⟩
    · have hok := write_eq s.mem ref hparse
      exact ⟨_, _, answerJob_ok (by rw [onMemory, hok]), .write hr hparse⟩
  · rw [if_neg hw, notImplemented_eq]
    exact ⟨_, s, rfl, answered_notImplemented (hnot hw)⟩

end Dispatch

/-- A request is dropped with the session as it was, or answered. -/
theorem handle_spec (cfg : ServerConfig) (req : Bytes) (s : Session) :
    Unreadable req ∧ handle cfg req s = (.ok (none, false), s) ∨
      ¬Unreadable req ∧ ∃ out s', handle cfg req s = (.ok (some out, true), s') ∧
        Answered cfg s (requestRosctr req) (requestRef req) (paramSection req) (dataSection req) out s' := by
  by_cases h : Unreadable req
  · exact .inl ⟨h, handle_unreadable h s⟩
  · rw [handle_readable h]
    exact .inr ⟨h, dispatch_spec _ _ _ _ _ _⟩

end S7Comm
