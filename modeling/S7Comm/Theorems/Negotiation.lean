import S7Comm.Client.Connect
import S7Comm.Theorems.Answers
import S7Comm.Theorems.MemoryRuns
import S7Comm.Theorems.ReadRequests

/-! The negotiated PDU size. No run of the server takes a session past the configured maximum; the size that a setup
    answer grants is the one that the session holds and that the client reads from it. Below the maximum every
    length field of a Read Var answer is exact. -/

namespace S7Comm
open Go

/-! ### Runs -/

theorem request_pduSize_le {cfg : ServerConfig} {s : Session} (h : s.pduSize ≤ cfg.maxPDUSize) (req : Bytes) :
    (handle cfg req s).2.pduSize ≤ cfg.maxPDUSize := by
  rcases handle_spec cfg req s with ⟨-, hdrop⟩ | ⟨-, out, s', hans, hout⟩
  · rw [hdrop]
    exact h
  · rw [hans]
    cases hout with
    | refused => exact h
    | userdata => exact h
    | setup => exact Nat.min_le_right _ _
    | read => exact h
    | write => exact h

theorem step_pduSize_le {cfg : ServerConfig} {srv : Server} (h : ∀ id, srv.pduSize id ≤ cfg.maxPDUSize) (e : Event) :
    ∀ id, (srv.step cfg e).pduSize id ≤ cfg.maxPDUSize := by
  cases e with
  | request id req =>
    intro id'
    simp only [Server.step, Function.update_apply]
    split
    · exact request_pduSize_le (h id) req
    · exact h id'
  | register => exact h
  | read => exact h
  | write => exact h

theorem run_pduSize_le (cfg : ServerConfig) (events : List Event) :
    ∀ id, ((Server.new cfg).run cfg events).pduSize id ≤ cfg.maxPDUSize :=
  List.foldlRecOn events _ (motive := fun t : Server => ∀ id, t.pduSize id ≤ cfg.maxPDUSize) (fun _ => Nat.le_refl _)
    fun _ ht e _ => step_pduSize_le ht e

/-! ### Setup -/

theorem setupAnswer_ackData (ref : UInt16) {calling called size : Nat} (h₁ : calling ≤ 65535) (h₂ : called ≤ 65535)
    (h₃ : size ≤ 65535) :
    setupAnswer (ackData ref 0 0 (setupParam calling called size) []) ref = .ok ⟨calling, called, size⟩ := by
  have hparse : parseSetupCommResponse (setupParam calling called size) = .ok ⟨calling, called, size⟩ := by
    have hfields : ∀ x y z : UInt16,
        parseSetupCommResponse ([funcSetupComm, 0] ++ putUint16 x ++ putUint16 y ++ putUint16 z) =
          .ok ⟨x.toNat, y.toNat, z.toNat⟩ := by
      intro x y z
      simp [parseSetupCommResponse, putUint16]
    rw [setupParam, hfields, uint16_toNat_ofNat (by omega), uint16_toNat_ofNat (by omega), uint16_toNat_ofNat (by omega)]
  unfold setupAnswer
  rw [parseS7Header_ackData (by simp [setupParam]) (by simp), List.append_nil]
  simp only [asProtocolFailure, Outcome.ok_bind]
  rw [if_neg (by simp), if_neg (by simp)]
  simp only [setupParam, List.cons_append, List.nil_append, List.append_assoc] at hparse ⊢
  rw [if_neg (by simp), hparse]

/-- A client that is sent `out` in answer to its setup request takes `resp` from it. -/
def ReadsSetup (out : Bytes) (ref : UInt16) (resp : SetupCommResponse) : Prop :=
  ∀ (γ σ : Type) (env : Env γ σ) (conn : γ) (calling called size : Int) (sent : Bytes) (w w₁ w₂ w₃ : σ),
    env.ctxErr w = (none, w₁) → encodeSetupCommRequest ref calling called size = .ok sent →
    env.writeTSDU conn sent w₁ = (none, w₂) → env.readTSDU conn w₂ = (.ok out, w₃) →
    performS7Setup env conn ref calling called size w = (.ok resp, w₃)

theorem readsSetup_of_setupAnswer {out : Bytes} {ref : UInt16} {resp : SetupCommResponse}
    (h : setupAnswer out ref = .ok resp) : ReadsSetup out ref resp := by
  intro γ σ env conn calling called size sent w w₁ w₂ w₃ hctx hsent hwrite hread
  unfold performS7Setup
  rw [Eff.bind_ok (worldErr_ok hctx), hsent, asValidation_ok, Eff.bind_ok (Eff.lift_apply _ _),
    Eff.bind_ok (worldErr_ok hwrite), Eff.bind_ok (worldVal_ok hread), h]
  rfl

theorem setupAnswer_refused {ref : UInt16} {cls code : UInt8} {fn : Bytes} (hcls : cls ≠ 0) (hfn : fn.length ≤ 1)
    (resp : SetupCommResponse) : setupAnswer (ackData ref cls code fn []) ref ≠ .ok resp := by
  unfold setupAnswer
  rw [parseS7Header_ackData (by omega) (by simp)]
  simp only [asProtocolFailure, Outcome.ok_bind]
  rw [if_neg (by simp), if_pos (.inl hcls)]
  intro h
  obtain ⟨_, -, h⟩ := Outcome.bind_eq_ok.mp h
  cases h

theorem dispatch_setup {cfg : ServerConfig} {s : Session} {ref : UInt16} {param data : Bytes}
    (hfn : param[0]? = some funcSetupComm) :
    dispatch cfg rosctrJob ref param data s = answerJob ref param (setup cfg ref param) s := by
  have hpos : param.length ≠ 0 := fun hnil => by simp [List.eq_nil_of_length_eq_zero hnil] at hfn
  unfold dispatch
  rw [if_neg (by decide), if_neg (by simp [hpos]), show indexAt param 0 = .ok funcSetupComm from index_eq_ok.mpr hfn,
    Eff.bind_ok (Eff.lift_apply _ _), if_pos rfl]

/-- A setup job is granted, and then the client reads the size that the session holds, or it is refused and changes
    nothing. -/
theorem handle_setup {cfg : ServerConfig} {req out : Bytes} {keep : Bool} {s s' : Session}
    (hjob : IsJob req funcSetupComm) (h : handle cfg req s = (.ok (some out, keep), s')) :
    (∃ asked resp, parseSetupCommRequest (paramSection req) = .ok asked ∧
        resp.pduSize = min asked.pduSize cfg.maxPDUSize ∧ s'.pduSize = resp.pduSize ∧
        ReadsSetup out (requestRef req) resp) ∨
      ((∃ e, parseSetupCommRequest (paramSection req) = .fail e) ∧ s' = s ∧
        ∀ resp, setupAnswer out (requestRef req) ≠ .ok resp) := by
  obtain ⟨hreadable, hrosctr, hfn⟩ := hjob
  rw [handle_readable hreadable, hrosctr, dispatch_setup hfn] at h
  cases hparse : parseSetupCommRequest (paramSection req) with
  | panic => exact absurd hparse (parseSetupCommRequest_ne_panic _)
  | fail e =>
    have hfail : setup cfg (requestRef req) (paramSection req) s = (.fail e, s) := by
      unfold setup
      rw [hparse]
      exact Eff.bind_fail (Eff.lift_apply _ _)
    rw [answerJob_fail hfail] at h
    cases h
    exact .inr ⟨⟨e, rfl⟩, rfl, setupAnswer_refused (by decide) (by simp)⟩
  | ok asked =>
    rw [answerJob_ok (setup_eq cfg (requestRef req) s hparse)] at h
    cases h
    have hsize : min asked.pduSize cfg.maxPDUSize ≤ 65535 :=
      Nat.le_trans (Nat.min_le_left _ _) (parseSetupCommRequest_pduSize_le hparse)
    have hgrant : ∀ n : Nat, max 1 (min n maxAmQ) ≤ 65535 := fun n => by
      have : maxAmQ = 2 := rfl
      omega
    exact .inl ⟨asked, _, rfl, rfl, rfl,
      readsSetup_of_setupAnswer (setupAnswer_ackData _ (hgrant asked.maxAmqCalling) (hgrant asked.maxAmqCalled) hsize)⟩

/-! ### Length fields -/

/-- The length field states the size of the data in the unit of the transport size: one bit, eight bits for a byte, or
    bytes. A refused item has neither. -/
def ExactLength (returnCode transportSize : UInt8) (rawLength : UInt16) (data : Bytes) : Prop :=
  (returnCode ≠ retCodeSuccess ∧ rawLength = 0 ∧ data = []) ∨
  (returnCode = retCodeSuccess ∧
    ((transportSize = dataTransportSizeBit ∧ rawLength = 1 ∧ data.length = 1) ∨
     (transportSize ∈ [dataTransportSizeByte, dataTransportSizeInt] ∧ rawLength.toNat = 8 * data.length) ∨
     (transportSize ∈ [dataTransportSizeDInt, dataTransportSizeReal, dataTransportSizeOctet] ∧
        rawLength.toNat = data.length)))

theorem readTransport_exact (transp : UInt8) {data : Bytes} (h : data.length ≤ 8191) :
    ExactLength retCodeSuccess (readTransport transp data.length).1 (readTransport transp data.length).2 data := by
  have hbytes : (lengthField data.length).toNat = data.length := lengthField_toNat (by omega)
  have hbits : (lengthField (data.length * 8)).toNat = 8 * data.length := by
    rw [lengthField_toNat (by omega), Nat.mul_comm]
  refine .inr ⟨rfl, .inr ?_⟩
  unfold readTransport
  split_ifs
  · exact .inl ⟨by simp, hbits⟩
  · exact .inr ⟨by simp, hbytes⟩
  · exact .inr ⟨by simp, hbytes⟩
  · exact .inr ⟨by simp, hbytes⟩
  · exact .inl ⟨by simp, hbits⟩

theorem readResult_exact {t : Target} {r : ReadVarResult} (h : readResult t = .ok r) (hle : r.data.length ≤ 8191) :
    ExactLength r.returnCode r.transportSize r.rawLength r.data := by
  unfold readResult at h
  obtain ⟨src, hsrc, h⟩ := Outcome.bind_eq_ok.mp h
  split at h
  · obtain ⟨b, -, h⟩ := Outcome.bind_eq_ok.mp h
    cases h
    exact .inr ⟨rfl, .inl ⟨rfl, rfl, rfl⟩⟩
  · cases h
    obtain ⟨-, hlen⟩ := slice_eq_ok_iff.mp hsrc
    rw [show t.size = src.length by omega]
    exact readTransport_exact t.transp hle

theorem dbRead_exact {mem : Memory} {ranges : List DBReadArea} {r : ReadVarResult} (h : dbRead mem ranges = .ok r)
    (hle : r.data.length ≤ 65535) : ExactLength r.returnCode r.transportSize r.rawLength r.data := by
  unfold dbRead at h
  rcases dbReadData_spec mem ranges [] with ⟨code, hdata, hcode⟩ | hdata
  · rw [hdata] at h
    cases h
    exact .inl ⟨hcode, rfl, rfl⟩
  · rw [hdata] at h
    cases h
    exact .inr ⟨rfl, .inr (.inr ⟨by simp, lengthField_toNat hle⟩)⟩

theorem itemResult_exact {mem : Memory} {spec : VarSpec} {range : Option (List DBReadArea)} {r : ReadVarResult}
    (h : itemResult mem spec range = .ok r) (hle : r.data.length ≤ 8191) :
    ExactLength r.returnCode r.transportSize r.rawLength r.data := by
  unfold itemResult at h
  split at h
  · exact dbRead_exact h (by omega)
  · split at h
    · rename_i code hres
      cases h
      exact .inl ⟨resolve_error_ne hres, rfl, rfl⟩
    · exact readResult_exact h hle

theorem results_exact {mem : Memory} {l : List (VarSpec × Option (List DBReadArea))} {results : List ReadVarResult}
    (h : List.Forall₂ (fun p r => itemResult mem p.1 p.2 = .ok r) l results)
    (hle : ∀ r ∈ results, r.data.length ≤ 8191) :
    ∀ r ∈ results, ExactLength r.returnCode r.transportSize r.rawLength r.data := by
  induction h with
  | nil => simp
  | cons hr _ ih =>
    rw [List.forall_mem_cons] at hle ⊢
    exact ⟨itemResult_exact hr hle.1, ih hle.2⟩

theorem length_rangeBytes_le (mem : Memory) (r : DBReadArea) : (rangeBytes mem r).length ≤ 255 := by
  have := r.length.toNat_lt
  unfold rangeBytes
  split
  · simp
  · rw [List.length_take]
    omega

theorem length_rangesBytes_le (mem : Memory) (ranges : List DBReadArea) :
    (rangesBytes mem ranges).length ≤ 256 * ranges.length := by
  induction ranges with
  | nil => simp [rangesBytes]
  | cons r ranges ih =>
    have hr := length_rangeBytes_le mem r
    unfold rangesBytes at ih ⊢
    rw [List.flatMap_cons, List.length_append, List.length_cons, List.length_cons]
    omega

/-- A decoded DBREAD item has at most 50 ranges, so that its length field is exact before any check of the size. -/
theorem dbRead_decoded_exact {param : Bytes} {ranges : List (Option (List DBReadArea))} {rs : List DBReadArea}
    {mem : Memory} {r : ReadVarResult} (h : parseReadVarDBRead param = .ok ranges) (hmem : some rs ∈ ranges)
    (hr : dbRead mem rs = .ok r) : ExactLength r.returnCode r.transportSize r.rawLength r.data := by
  obtain ⟨specs, hspecs, -⟩ := Outcome.bind_eq_ok.mp h
  obtain ⟨items, hpos, hle, rfl, -⟩ := parseVarSpecs_eq_ok.mp hspecs
  rw [parseReadVarDBRead_eq hpos hle] at h
  cases h
  obtain ⟨item, -, hitem⟩ := List.mem_map.mp hmem
  have hfifty : rs.length ≤ 50 := by
    cases item with
    | s7any => cases hitem
    | dbRead ranges pos le =>
      cases hitem
      exact le
    | other => cases hitem
  refine dbRead_exact hr ?_
  obtain ⟨r', hr', hwf, hdata⟩ := dbRead_spec mem rs
  rw [hr] at hr'
  cases hr'
  by_cases hok : r.returnCode = retCodeSuccess
  · have := length_rangesBytes_le mem rs
    rw [hdata hok]
    omega
  · simp [(hwf.refused hok).2.2]

/-- A Read Var answer of a session within the maximum decodes to items with exact length fields. -/
theorem handle_read_exact {cfg : ServerConfig} {req out rest : Bytes} {keep : Bool} {s s' : Session} {header : S7Header}
    (hs : s.pduSize ≤ maxPDUSize) (h : handle cfg req s = (.ok (some out, keep), s'))
    (hheader : parseS7Header out = .ok (header, rest)) (hrosctr : header.rosctr = rosctrAckData)
    (hcls : header.errorClass = 0) (hfn : rest.head? = some funcReadVar) :
    ∃ items, parseReadVarResponse (rest.take header.paramLength.toNat)
        ((rest.drop header.paramLength.toNat).take header.dataLength.toNat) = .ok items ∧
      ∀ item ∈ items, ExactLength item.returnCode item.rawTransportSize item.rawLength item.data := by
  rcases handle_spec cfg req s with ⟨-, hdrop⟩ | ⟨hreadable, out', s'', hans, hout⟩
  · rw [hdrop] at h
    cases h
  rw [h] at hans
  cases hans
  cases hout with
  | refused hcls' hfn' =>
    rw [parseS7Header_ackData (by omega) (by simp)] at hheader
    cases hheader
    rcases hcls' with rfl | rfl
    · exact absurd hcls (show errClassApp ≠ 0 by decide)
    · exact absurd hcls (show errClassSupplies ≠ 0 by decide)
  | userdata _ hresp hitem =>
    rw [parseS7Header_message (by decide) (by omega) (by omega)] at hheader
    cases hheader
    exact absurd hrosctr (show rosctrUserdata ≠ rosctrAckData by decide)
  | @setup resp asked hjob hparse hresp =>
    have hset := parseSetupCommRequest_function hparse
    rw [handle_readable hreadable, hjob, dispatch_setup hset, answerJob_ok (setup_eq cfg _ s hparse)] at h
    have hout := Option.some.inj (congrArg Prod.fst (Outcome.ok.inj (Prod.mk.inj h).1))
    rw [← hout, parseS7Header_ackData (by simp [setupParam]) (by simp)] at hheader
    cases hheader
    exact absurd hfn (by simp [setupParam, funcSetupComm, funcReadVar])
  | @write specs items hjob hparse =>
    obtain ⟨hlen, -, hle⟩ := parseWriteVarRequest_length hparse
    rw [parseS7Header_ackData (by simp) (by rw [length_writeCodes hlen]; omega)] at hheader
    cases hheader
    exact absurd hfn (by simp [funcWriteVar, funcReadVar])
  | @read specs _ hjob hparse =>
    obtain ⟨-, hcount, hread⟩ := parseVarSpecs_length hparse
    obtain ⟨ranges, results, -, hlen, hall, heq⟩ := read_eq s (requestRef req) hparse
    have hresults : results.length ≤ 255 := by
      rw [← hall.length_eq, List.length_zip, hlen, Nat.min_self]
      exact hcount
    rw [handle_readable hreadable, hjob] at h
    by_cases hbig : s.pduSize < 14 + readVarResultsSize results
    · rw [if_pos hbig] at heq
      rw [dispatch_read hread heq] at h
      have hout := Option.some.inj (congrArg Prod.fst (Outcome.ok.inj (Prod.mk.inj h).1))
      rw [← hout, parseS7Header_ackData (by simp) (by simp)] at hheader
      cases hheader
      exact absurd hcls (show errClassSupplies ≠ 0 by decide)
    · have hmax : maxPDUSize = 4096 := rfl
      have hshort : (readVarResultBytes results).length ≤ 65535 := by
        rw [length_readVarResultBytes]
        omega
      have hsmall : ∀ r ∈ results, r.data.length ≤ 8191 := fun r hr => by
        have := length_data_le r hr
        omega
      rw [if_neg hbig, encodeReadVarResponse, if_neg (by omega), encodeAckData_eq (by simp) hshort] at heq
      rw [dispatch_read hread heq] at h
      have hout := Option.some.inj (congrArg Prod.fst (Outcome.ok.inj (Prod.mk.inj h).1))
      rw [← hout, parseS7Header_ackData (by simp) hshort] at hheader
      cases hheader
      refine ⟨results.map ReadVarResult.item, ?_, ?_⟩
      · dsimp only
        rw [uint16_toNat_ofNat (by simp), uint16_toNat_ofNat (by omega), List.take_left, List.drop_left, List.take_length]
        exact parseReadVarResponse_eq hresults (wellFormed_results hall) hsmall
      · intro item hitem
        obtain ⟨r, hr, rfl⟩ := List.mem_map.mp hitem
        exact results_exact hall hsmall r hr

/-- In every run of the server each session keeps within the configured maximum. What a setup answer grants is the
    smaller of the requested size and the maximum; the session holds it, and a client reads it from the answer. Every
    Read Var answer decodes to items with exact length fields, and those of DBREAD items are exact even where the
    answer is then refused for its size. -/
theorem negotiation_invariant (cfg : ServerConfig) (events : List Event) (id : Nat) :
    (((Server.new cfg).run cfg events).pduSize id ≤ cfg.maxPDUSize ∧ cfg.maxPDUSize ≤ 4096) ∧
    (∀ (req out : Bytes) (keep : Bool) (s' : Session), IsJob req funcSetupComm →
      handle cfg req (((Server.new cfg).run cfg events).session id) = (.ok (some out, keep), s') →
      (∃ asked resp, parseSetupCommRequest (paramSection req) = .ok asked ∧
          resp.pduSize = min asked.pduSize cfg.maxPDUSize ∧ s'.pduSize = resp.pduSize ∧
          ReadsSetup out (requestRef req) resp) ∨
        ((∃ e, parseSetupCommRequest (paramSection req) = .fail e) ∧
          s' = ((Server.new cfg).run cfg events).session id ∧
          ∀ resp, setupAnswer out (requestRef req) ≠ .ok resp)) ∧
    (∀ (req out rest : Bytes) (keep : Bool) (s' : Session) (header : S7Header),
      handle cfg req (((Server.new cfg).run cfg events).session id) = (.ok (some out, keep), s') →
      parseS7Header out = .ok (header, rest) → header.rosctr = rosctrAckData → header.errorClass = 0 →
      rest.head? = some funcReadVar →
      ∃ items, parseReadVarResponse (rest.take header.paramLength.toNat)
          ((rest.drop header.paramLength.toNat).take header.dataLength.toNat) = .ok items ∧
        ∀ item ∈ items, ExactLength item.returnCode item.rawTransportSize item.rawLength item.data) ∧
    (∀ (param : Bytes) (ranges : List (Option (List DBReadArea))) (rs : List DBReadArea) (r : ReadVarResult),
      parseReadVarDBRead param = .ok ranges → some rs ∈ ranges →
      dbRead ((Server.new cfg).run cfg events).mem rs = .ok r →
      ExactLength r.returnCode r.transportSize r.rawLength r.data) := by
  have hle := run_pduSize_le cfg events id
  refine ⟨⟨hle, cfg.le_max⟩, fun req out keep s' hjob h => handle_setup hjob h, ?_,
    fun param ranges rs r h hmem hr => dbRead_decoded_exact h hmem hr⟩
  intro req out rest keep s' header h hheader hrosctr hcls hfn
  exact handle_read_exact (Nat.le_trans hle cfg.le_max) h hheader hrosctr hcls hfn

end S7Comm
