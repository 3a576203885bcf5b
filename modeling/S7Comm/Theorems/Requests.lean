import S7Comm.Theorems.Handle

/-! What holds of every request to the server: it is answered with one well-formed PDU, a refusal changes nothing,
    and how long the answer is. -/

namespace S7Comm
open Go

/-! ### Every readable request is answered -/

theorem parseS7Header_ackData_exact {ref : UInt16} {cls code : UInt8} {param data : Bytes}
    (hp : param.length ≤ 65535) (hd : data.length ≤ 65535) :
    ∃ header rest, parseS7Header (ackData ref cls code param data) = .ok (header, rest) ∧
      (ackData ref cls code param data).length =
        header.size + header.paramLength.toNat + header.dataLength.toNat ∧
      header.pduRef = ref ∧ header.rosctr = rosctrAckData := by
  refine ⟨_, _, parseS7Header_ackData hp hd, ?_, rfl, rfl⟩
  dsimp only
  rw [uint16_toNat_ofNat (by omega), uint16_toNat_ofNat (by omega), length_ackData]
  rfl

theorem Answered.parse {cfg : ServerConfig} {s s' : Session} {rosctr : UInt8} {ref : UInt16} {param data out : Bytes}
    (h : Answered cfg s rosctr ref param data out s') :
    ∃ header rest, parseS7Header out = .ok (header, rest) ∧
      out.length = header.size + header.paramLength.toNat + header.dataLength.toNat ∧
      header.pduRef = ref ∧
      (header.rosctr = rosctrAckData ∨ header.rosctr = rosctrUserdata ∧ rosctr = rosctrUserdata) := by
  have hack : ∀ {cls code : UInt8} {p d : Bytes}, p.length ≤ 65535 → d.length ≤ 65535 →
      ∃ header rest, parseS7Header (ackData ref cls code p d) = .ok (header, rest) ∧
        (ackData ref cls code p d).length = header.size + header.paramLength.toNat + header.dataLength.toNat ∧
        header.pduRef = ref ∧
        (header.rosctr = rosctrAckData ∨ header.rosctr = rosctrUserdata ∧ rosctr = rosctrUserdata) := fun hp hd => by
    obtain ⟨header, rest, hparse, hlen, href, hr⟩ := parseS7Header_ackData_exact hp hd
    exact ⟨header, rest, hparse, hlen, href, .inl hr⟩
  cases h with
  | refused _ hfn _ => exact hack (by omega) (by simp)
  | userdata hr hresp hitem =>
    refine ⟨_, _, parseS7Header_message (by decide) (by omega) (by omega), ?_, rfl, .inr ⟨rfl, hr⟩⟩
    dsimp only
    rw [hresp, hitem, length_message, hresp, hitem]
    rfl
  | setup _ _ hresp => exact hack (by omega) (by simp)
  | read _ _ _ hle => exact hack (by simp) (by rwa [length_readVarResultBytes])
  | write _ hparse =>
    obtain ⟨hlen, -, hle⟩ := parseWriteVarRequest_length hparse
    exact hack (by simp) (by rw [length_writeCodes hlen]; omega)

/-- `handle` keeps every bound. It drops exactly the PDUs whose header cannot be read, and answers every other one
    with a PDU of its declared length that echoes the reference. -/
theorem handle_answers_readable (cfg : ServerConfig) (req : Bytes) (s : Session) :
    ∃ out keep s', handle cfg req s = (.ok (out, keep), s') ∧
      ((out = none ∧ keep = false) ↔
        req.length < 10 ∨ req[0]? ≠ some 0x32 ∨ 10 + declaredLength req 6 + declaredLength req 8 ≠ req.length) ∧
      (¬(req.length < 10 ∨ req[0]? ≠ some 0x32 ∨ 10 + declaredLength req 6 + declaredLength req 8 ≠ req.length) →
        keep = true ∧ ∃ answer header rest, out = some answer ∧ answer ≠ [] ∧
          parseS7Header answer = .ok (header, rest) ∧
          answer.length = header.size + header.paramLength.toNat + header.dataLength.toNat ∧
          header.pduRef = requestRef req ∧
          (header.rosctr = rosctrAckData ∨
            header.rosctr = rosctrUserdata ∧ requestRosctr req = rosctrUserdata)) := by
  rcases handle_spec cfg req s with ⟨hun, hdrop⟩ | ⟨hre, out, s', hans, hout⟩
  · exact ⟨none, false, s, hdrop, ⟨fun _ => hun, fun _ => ⟨rfl, rfl⟩⟩, fun h => absurd hun h⟩
  · obtain ⟨header, rest, hparse, hlen, href, hros⟩ := hout.parse
    have hne : out ≠ [] := by
      rintro rfl
      simp only [List.length_nil, S7Header.size, s7HeaderSize] at hlen
      split at hlen <;> omega
    exact ⟨some out, true, s', hans, ⟨fun h => by simp at h, fun h => absurd h hre⟩,
      fun _ => ⟨rfl, out, header, rest, rfl, hne, hparse, hlen, href, hros⟩⟩

/-! ### Refused requests change nothing -/

/-- An Ack-Data PDU without an error is not a refusal. -/
theorem not_refusal_ackData {ref : UInt16} {param data rest : Bytes} {header : S7Header} (hp : param.length ≤ 65535)
    (hd : data.length ≤ 65535) (h : parseS7Header (ackData ref 0 0 param data) = .ok (header, rest)) :
    ¬(header.errorClass ≠ 0 ∨ header.errorCode ≠ 0 ∨ header.rosctr = rosctrUserdata) := by
  rw [parseS7Header_ackData hp hd] at h
  cases h
  simp [rosctrAckData, rosctrUserdata]

/-- A request that is dropped, refused with a header error or refused as user data leaves memory and PDU size as
    they were; a granted Setup Communication changes only the PDU size, Read Var nothing, and Write Var never the
    PDU size. -/
theorem refused_request_atomic (cfg : ServerConfig) (req : Bytes) (s : Session) :
    ∃ out keep s', handle cfg req s = (.ok (out, keep), s') ∧
      (keep = false → s' = s) ∧
      (∀ answer header rest, out = some answer → parseS7Header answer = .ok (header, rest) →
        header.errorClass ≠ 0 ∨ header.errorCode ≠ 0 ∨ header.rosctr = rosctrUserdata → s' = s) ∧
      (IsJob req funcSetupComm → s'.mem = s.mem) ∧
      (IsJob req funcReadVar → s' = s) ∧
      (IsJob req funcWriteVar → s'.pduSize = s.pduSize) := by
  rcases handle_spec cfg req s with ⟨hun, hdrop⟩ | ⟨hre, out, s', hans, hout⟩
  · exact ⟨none, false, s, hdrop, fun _ => rfl, by simp, fun _ => rfl, fun _ => rfl, fun _ => rfl⟩
  refine ⟨some out, true, s', hans, by simp, ?_⟩
  -- Only a granted setup and an accepted write change the session, and each is a job of its own function.
  have hother : ∀ {fn gn : UInt8}, (paramSection req)[0]? = some gn → fn ≠ gn → ¬IsJob req fn := fun hgn hne hjob =>
    hne (Option.some.inj (hjob.2.2.symm.trans hgn))
  cases hout with
  | refused => exact ⟨fun _ _ _ _ _ _ => rfl, fun _ => rfl, fun _ => rfl, fun _ => rfl⟩
  | userdata => exact ⟨fun _ _ _ _ _ _ => rfl, fun _ => rfl, fun _ => rfl, fun _ => rfl⟩
  | read => exact ⟨fun _ _ _ _ _ _ => rfl, fun _ => rfl, fun _ => rfl, fun _ => rfl⟩
  | setup _ hparse hresp =>
    have hfn := parseSetupCommRequest_function hparse
    refine ⟨fun answer header rest ha hp hbad => ?_, fun _ => rfl, fun hjob => ?_, fun hjob => ?_⟩
    · cases ha
      exact absurd hbad (not_refusal_ackData (by omega) (by simp) hp)
    · exact absurd hjob (hother hfn (by decide))
    · exact absurd hjob (hother hfn (by decide))
  | write _ hparse =>
    have hfn := parseWriteVarRequest_function hparse
    obtain ⟨hlen, -, hle⟩ := parseWriteVarRequest_length hparse
    refine ⟨fun answer header rest ha hp hbad => ?_, fun hjob => ?_, fun hjob => ?_, fun _ => rfl⟩
    · cases ha
      exact absurd hbad (not_refusal_ackData (by simp) (by rw [length_writeCodes hlen]; omega) hp)
    · exact absurd hjob (hother hfn (by decide))
    · exact absurd hjob (hother hfn (by decide))

/-! ### The length of an answer -/

/-- A Write Var job that parses with more items than an answer of `pduSize` bytes has room for. -/
def LongWrite (req : Bytes) (pduSize : Nat) : Prop :=
  requestRosctr req = rosctrJob ∧ ∃ specs items,
    parseWriteVarRequest (paramSection req) (dataSection req) = .ok (specs, items) ∧ pduSize < 14 + specs.length

/-- `handle` bounds the answer of a Read Var job by the granted PDU size, but not that of a Write Var job: an answer
    is past the PDU exactly when it answers a Write Var job with too many items. -/
theorem answer_within_pdu_iff {cfg : ServerConfig} {req out : Bytes} {s s' : Session} {keep : Bool}
    (hs : 26 ≤ s.pduSize) (hs' : 26 ≤ s'.pduSize) (h : handle cfg req s = (.ok (some out, keep), s')) :
    (out.length ≤ s.pduSize ∧ out.length ≤ s'.pduSize) ↔ ¬LongWrite req s.pduSize := by
  rcases handle_spec cfg req s with ⟨-, hdrop⟩ | ⟨-, out', s'', hans, hout⟩
  · rw [hdrop] at h
    cases h
  rw [hans] at h
  cases h
  have hother : ∀ {fn : UInt8}, (paramSection req)[0]? = some fn → fn ≠ funcWriteVar → ¬LongWrite req s.pduSize := by
    rintro fn hfn hne ⟨-, specs, items, hparse, -⟩
    exact hne (Option.some.inj (hfn.symm.trans (parseWriteVarRequest_function hparse)))
  cases hout with
  | refused _ hfn hnot =>
    refine iff_of_true ?_ ?_
    · simp only [length_ackData, List.length_nil]
      omega
    · rintro ⟨hr, specs, items, hparse, -⟩
      exact hnot _ hr hparse
  | userdata hr hresp hitem =>
    refine iff_of_true ?_ ?_
    · simp only [length_message]
      omega
    · rintro ⟨hjob, -⟩
      exact absurd (hr.symm.trans hjob) (by decide)
  | setup _ hparse hresp =>
    refine iff_of_true ?_ (hother (parseSetupCommRequest_function hparse) (by decide))
    simp only [length_ackData, hresp, List.length_nil]
    exact ⟨by omega, Nat.le_trans (by decide) hs'⟩
  | read _ hparse hfits _ =>
    refine iff_of_true ?_ (hother (parseVarSpecs_length hparse).2.2 (by decide))
    simp only [length_ackData, length_readVarResultBytes, List.length_cons, List.length_nil]
    omega
  | write hr hparse =>
    obtain ⟨hlen, -⟩ := parseWriteVarRequest_length hparse
    simp only [length_ackData, length_writeCodes hlen, List.length_cons, List.length_nil]
    constructor
    · rintro ⟨hle, -⟩ ⟨-, specs, items, hparse', hgt⟩
      rw [hparse] at hparse'
      cases hparse'
      omega
    · intro hshort
      have hle : ¬s.pduSize < 14 + _ := fun hgt => hshort ⟨hr, _, _, hparse, hgt⟩
      omega

/-- A Write Var job of `n` items, each one byte of the marker area. -/
def markerWrites (n : Nat) : Bytes :=
  message rosctrJob 1
    ([funcWriteVar, UInt8.ofNat n] ++ (List.replicate n (putS7Any transportSizeByte 1 0 areaMerkers 0)).flatten)
    (List.replicate n [0x00, dataTransportSizeByte, 0x00, 0x08, 0x2A, 0x00]).flatten

/-- A session with a granted size of 26 bytes, on a memory with one byte of markers. -/
def markerSession : Session := ⟨Memory.empty.set { area := areaMerkers } ⟨[0x00], false⟩, 26⟩

theorem eq_mk_of_fst_eq {α β : Type} {p : α × β} {a : α} (h : p.1 = a) : p = (a, p.2) := by rw [← h]

/-- Twelve items are answered within the PDU. -/
theorem answer_within_pdu_twelve :
    ∃ out s', handle defaultConfig (markerWrites 12) markerSession = (.ok (some out, true), s') ∧
      26 ≤ markerSession.pduSize ∧ 26 ≤ s'.pduSize ∧
      ((out.length ≤ markerSession.pduSize ∧ out.length ≤ s'.pduSize) ↔
        ¬LongWrite (markerWrites 12) markerSession.pduSize) := by
  have hout : (handle defaultConfig (markerWrites 12) markerSession).1 =
      .ok (some (ackData 1 0 0 [funcWriteVar, 12] (List.replicate 12 retCodeSuccess)), true) := by decide +kernel
  have hsize : 26 ≤ (handle defaultConfig (markerWrites 12) markerSession).2.pduSize := by decide +kernel
  have hpair := eq_mk_of_fst_eq hout
  exact ⟨_, _, hpair, Nat.le_refl 26, hsize, answer_within_pdu_iff (Nat.le_refl 26) hsize hpair⟩

/-- Thirteen are not: the server takes the request, and its answer is 27 bytes long. -/
theorem long_write_past_pdu :
    (markerWrites 13).length ≤ defaultConfig.maxPDUSize ∧ markerSession.pduSize = 26 ∧
      (handle defaultConfig (markerWrites 13) markerSession).2.pduSize = 26 ∧
      (handle defaultConfig (markerWrites 13) markerSession).1 =
        .ok (some (ackData 1 0 0 [funcWriteVar, 13] (List.replicate 13 retCodeSuccess)), true) ∧
      26 < (ackData 1 0 0 [funcWriteVar, 13] (List.replicate 13 retCodeSuccess)).length := by
  refine ⟨by decide +kernel, rfl, by decide +kernel, by decide +kernel, by decide +kernel⟩

end S7Comm
