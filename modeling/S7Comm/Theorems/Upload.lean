import S7Comm.System.Cpu
import S7Comm.Theorems.Answers
import S7Comm.Theorems.SendReceive

/-! Block upload from a CPU that advances with every Upload request it receives. A try that fails before the CPU
    receives the request asks for the same segment again; a try whose answer is lost has used its segment up. -/

namespace S7Comm
open Go

/-! ### Segments -/

theorem keptSegments_nil (ss : List Segment) : keptSegments ss [] = ss := by
  cases ss <;> rfl

theorem keptSegments_delivered {ps : List Passage} (h : ps.headD .delivered = .delivered) (s : Segment)
    (ss : List Segment) : keptSegments (s :: ss) ps = s :: keptSegments ss ps.tail := by
  cases ps with
  | nil => simp [keptSegments_nil]
  | cons p ps =>
    obtain rfl : p = .delivered := h
    rfl

theorem keptSegments_requestLost {ps : List Passage} {err : GoError} (h : ps.headD .delivered = .requestLost err)
    (ss : List Segment) : keptSegments ss ps = keptSegments ss ps.tail := by
  cases ps with
  | nil => cases h
  | cons p ps =>
    obtain rfl : p = .requestLost err := h
    cases ss <;> simp [keptSegments]

theorem keptSegments_answerLost {ps : List Passage} {err : GoError} (h : ps.headD .delivered = .answerLost err)
    (s : Segment) (ss : List Segment) : keptSegments (s :: ss) ps = keptSegments ss ps.tail := by
  cases ps with
  | nil => cases h
  | cons p ps =>
    obtain rfl : p = .answerLost err := h
    rfl

/-- The bytes of segments. -/
def blockBytes (ss : List Segment) : Bytes := ss.flatMap Subtype.val

theorem length_keptSegments (ss : List Segment) (ps : List Passage) :
    (blockBytes (keptSegments ss ps)).length + (blockBytes (lostSegments ss ps)).length = (blockBytes ss).length := by
  fun_induction keptSegments ss ps with
  | case1 ps => simp [lostSegments, blockBytes]
  | case2 s ss => simp [lostSegments, blockBytes]
  | case3 s ss ps ih =>
    simp only [lostSegments, blockBytes, List.flatMap_cons, List.length_append] at ih ⊢
    omega
  | case4 s ss err ps ih => simpa [lostSegments] using ih
  | case5 s ss err ps ih =>
    simp only [lostSegments, blockBytes, List.flatMap_cons, List.length_append] at ih ⊢
    omega

theorem keptSegments_of_lost_empty {ss : List Segment} {ps : List Passage}
    (h : ∀ s ∈ lostSegments ss ps, s.val = []) : blockBytes (keptSegments ss ps) = blockBytes ss := by
  fun_induction keptSegments ss ps with
  | case1 ps => rfl
  | case2 s ss => rfl
  | case3 s ss ps ih =>
    simp only [blockBytes, List.flatMap_cons] at ih ⊢
    rw [ih h]
  | case4 s ss err ps ih => exact ih h
  | case5 s ss err ps ih =>
    simp only [lostSegments, List.mem_cons, forall_eq_or_imp] at h
    simp only [blockBytes, List.flatMap_cons] at ih ⊢
    rw [ih h.2, h.1, List.nil_append]

/-- Nothing but empty segments is lost exactly when what is kept is the whole block. -/
theorem keptSegments_eq_iff (ss : List Segment) (ps : List Passage) :
    blockBytes (keptSegments ss ps) = blockBytes ss ↔ ∀ s ∈ lostSegments ss ps, s.val = [] := by
  refine ⟨fun h s hs => ?_, keptSegments_of_lost_empty⟩
  have hlen := length_keptSegments ss ps
  rw [h] at hlen
  have hnil : blockBytes (lostSegments ss ps) = [] := List.length_eq_zero_iff.mp (by omega)
  exact List.flatMap_eq_nil_iff.mp hnil s hs

/-! ### One exchange -/

theorem upload_request_ref (ref : UInt16) (uploadID : UInt32) :
    be16 ((encodeUploadRequest ref uploadID).getD 4 0) ((encodeUploadRequest ref uploadID).getD 5 0) = ref ∧
      (encodeUploadRequest ref uploadID).getD 10 0 = funcUpload := by
  constructor
  · exact be16_putUint16 ref
  · rfl

theorem segmentAnswer_eq (ref : UInt16) (s : Segment) (last : Bool) :
    segmentAnswer ref s.val last = ackData ref 0 0 [funcUpload, if last then 0x00 else 0x01]
      (putUint16 (UInt16.ofNat s.val.length) ++ [0x00, 0xFB] ++ s.val) := by
  have hs := s.property
  unfold segmentAnswer
  rw [encodeAckData_eq (by simp) (by simp; omega)]
  rfl

theorem parseUploadResponse_segment (s : Segment) (last : Bool) :
    parseUploadResponse [funcUpload, if last then 0x00 else 0x01]
      (putUint16 (UInt16.ofNat s.val.length) ++ [0x00, 0xFB] ++ s.val) = .ok ⟨last, s.val⟩ := by
  have hs := s.property
  have hlen : (UInt16.ofNat s.val.length).toNat = s.val.length := uint16_toNat_ofNat (by omega)
  have hword : wordAt (putUint16 (UInt16.ofNat s.val.length) ++ [0x00, 0xFB] ++ s.val) 0 =
      .ok (UInt16.ofNat s.val.length) := by
    rw [wordAt_of_le (by simp)]
    exact congrArg Outcome.ok (be16_putUint16 _)
  have hslice : sliceOf (putUint16 (UInt16.ofNat s.val.length) ++ [0x00, 0xFB] ++ s.val) 4 (4 + s.val.length) =
      .ok s.val := by
    rw [sliceOf_of_le (by omega) (by simp; omega)]
    simp [putUint16]
  have hdone : ((if last then 0x00 else 0x01 : UInt8) &&& 0x01 == 0) = last := by cases last <;> rfl
  unfold parseUploadResponse
  rw [if_neg (by simp), show indexAt [funcUpload, if last then 0x00 else 0x01] 0 = .ok funcUpload from rfl,
    Outcome.ok_bind, if_neg (by simp), if_neg (by simp; omega), hword, Outcome.ok_bind]
  dsimp only
  rw [hlen, if_neg (by simp; omega), hslice]
  exact congrArg (fun d => Outcome.ok (UploadChunk.mk d s.val)) hdone

/-- A header with an error class or code is an S7 error. -/
theorem responseSections_refused {cls code : UInt8} (h : cls ≠ 0 ∨ code ≠ 0) (ref : UInt16) :
    ∃ e, responseSections (ackData ref cls code [] []) ref = .fail (.s7 e) := by
  unfold responseSections
  rw [parseS7Header_ackData (by simp) (by simp)]
  dsimp only
  rw [if_neg (by simp), if_pos h]
  exact ⟨_, rfl⟩

theorem answer_segment {cpu : Cpu} {s : Segment} {rest : List Segment} (h : cpu.segments = s :: rest) (ref : UInt16)
    (uploadID : UInt32) :
    cpu.answer (encodeUploadRequest ref uploadID) =
      (ackData ref 0 0 [funcUpload, if rest.isEmpty then 0x00 else 0x01]
        (putUint16 (UInt16.ofNat s.val.length) ++ [0x00, 0xFB] ++ s.val), { cpu with segments := rest }) := by
  obtain ⟨href, hfn⟩ := upload_request_ref ref uploadID
  unfold Cpu.answer
  simp only [href, hfn, if_pos, h, segmentAnswer_eq]

theorem answer_no_segment {cpu : Cpu} (h : cpu.segments = []) (ref : UInt16) (uploadID : UInt32) :
    cpu.answer (encodeUploadRequest ref uploadID) = (ackData ref cpu.errClass cpu.errCode [] [], cpu) := by
  obtain ⟨href, hfn⟩ := upload_request_ref ref uploadID
  unfold Cpu.answer
  simp only [href, hfn, if_pos, h]
  rw [encodeAckData_eq (by simp) (by simp)]
  rfl

section Passages
variable {cpu : Cpu} {err : GoError} (req : Bytes)

theorem writeTSDU_requestLost (h : cpu.passages.headD .delivered = .requestLost err) :
    cpuNet.writeTSDU req cpu = (some err, { cpu with passages := cpu.passages.tail }) := by
  simp only [cpuNet, h]

theorem writeTSDU_answerLost (h : cpu.passages.headD .delivered = .answerLost err) :
    cpuNet.writeTSDU req cpu =
      (none, { (cpu.answer req).2 with passages := cpu.passages.tail, pending := .error err }) := by
  simp only [cpuNet, h]

theorem writeTSDU_delivered (h : cpu.passages.headD .delivered = .delivered) :
    cpuNet.writeTSDU req cpu =
      (none, { (cpu.answer req).2 with passages := cpu.passages.tail, pending := .ok (cpu.answer req).1 }) := by
  simp only [cpuNet, h]

end Passages

/-- An Upload request takes the next segment of the block, or it fails and leaves the same segments to come, unless
    the CPU has none left. -/
theorem upload_exchange {ref : UInt16} {uploadID : UInt32} {c c' : Client} {cpu cpu' : Cpu} {r : Res (Bytes × Bytes)}
    (h : sendReceive cpuNet (encodeUploadRequest ref uploadID) ref (c, cpu) = (r, (c', cpu'))) :
    (∀ param data, r = .ok (param, data) → ∃ s,
      keptSegments cpu.segments cpu.passages = s :: keptSegments cpu'.segments cpu'.passages ∧
        parseUploadResponse param data = .ok ⟨cpu'.segments.isEmpty, s.val⟩) ∧
    ∀ err, r = .fail err → isUploadProtocolError err = true ∨
      keptSegments cpu'.segments cpu'.passages = keptSegments cpu.segments cpu.passages := by
  by_cases hsent : c.connected = true ∧ ¬(c.pduSize > 0 ∧ (encodeUploadRequest ref uploadID).length > c.pduSize)
  · cases hhead : cpu.passages.headD .delivered with
    | requestLost err =>
      rw [sendReceive_write_fail hsent.1 hsent.2 (writeTSDU_requestLost _ hhead)] at h
      cases h
      exact ⟨nofun, fun _ _ => .inr (keptSegments_requestLost hhead _).symm⟩
    | answerLost err =>
      rw [sendReceive_read_fail hsent.1 hsent.2 (writeTSDU_answerLost _ hhead) rfl rfl] at h
      cases h
      refine ⟨nofun, fun _ _ => .inr ?_⟩
      cases hsegments : cpu.segments with
      | nil =>
        rw [answer_no_segment hsegments]
        simp [hsegments, keptSegments]
      | cons s rest =>
        rw [answer_segment hsegments, keptSegments_answerLost hhead]
    | delivered =>
      rw [sendReceive_read hsent.1 hsent.2 (writeTSDU_delivered _ hhead) rfl rfl] at h
      cases hsegments : cpu.segments with
      | nil =>
        obtain ⟨e, hrefused⟩ := responseSections_refused cpu.refuses ref
        rw [answer_no_segment hsegments, hrefused] at h
        cases h
        refine ⟨nofun, ?_⟩
        rintro err ⟨⟩
        exact .inl rfl
      | cons s rest =>
        have hs := s.property
        rw [answer_segment hsegments, responseSections_ackData (by simp; omega)] at h
        cases h
        refine ⟨?_, nofun⟩
        rintro param data ⟨⟩
        exact ⟨s, keptSegments_delivered hhead s rest, parseUploadResponse_segment s rest.isEmpty⟩
  · obtain ⟨err, -, hunsent⟩ : ∃ err, _ ∧ sendReceive cpuNet (encodeUploadRequest ref uploadID) ref (c, cpu) =
        (.fail err, (c, cpu)) := sendReceive_unsent hsent
    rw [hunsent] at h
    cases h
    exact ⟨nofun, fun _ _ => .inr rfl⟩

/-! ### Chunks -/

/-- A chunk that is returned is the next segment that is not lost. -/
theorem uploadChunk_ok {uploadID : UInt32} {i received left : Nat} {lastErr : Option GoError} {c c' : Client}
    {cpu cpu' : Cpu} {chunk : UploadChunk}
    (h : uploadChunk cpuNet uploadID i received left lastErr (c, cpu) = (.ok chunk, (c', cpu'))) :
    ∃ s, keptSegments cpu.segments cpu.passages = s :: keptSegments cpu'.segments cpu'.passages ∧
      chunk = ⟨cpu'.segments.isEmpty, s.val⟩ := by
  induction left generalizing lastErr c cpu with
  | zero => cases lastErr <;> cases h
  | succ left ih =>
    unfold uploadChunk at h
    obtain ⟨_, st₁, hctx, h⟩ := Eff.bind_eq_ok.mp h
    obtain ⟨_, hnone, rfl⟩ := netErr_eq_ok.mp hctx
    cases hnone
    obtain ⟨chunkRef, st₂, href, h⟩ := Eff.bind_eq_ok.mp h
    obtain ⟨hr, rfl⟩ := Prod.mk.inj href
    obtain ⟨answer, ⟨c₁, cpu₁⟩, hattempt, h⟩ := Eff.bind_eq_ok.mp h
    rcases Eff.attempt_eq_ok hattempt with ⟨⟨param, data⟩, rfl, hsend⟩ | ⟨err, rfl, hsend⟩
    · obtain ⟨s, hkept, hparse⟩ := (upload_exchange hsend).1 param data rfl
      dsimp only at h
      rw [hparse] at h
      cases h
      exact ⟨s, hkept, rfl⟩
    · dsimp only at h
      split at h
      · cases h
      · -- The try before left the same segments to come, so what the rest returns is also what this returns.
        rename_i hretry
        have hsame := ((upload_exchange hsend).2 err rfl).resolve_left hretry
        obtain ⟨s, hkept, hchunk⟩ := ih h
        exact ⟨s, hsame.symm.trans hkept, hchunk⟩

theorem uploadChunks_ok {uploadID : UInt32} {left i chunkCount count : Nat} {payload out : Bytes} {c : Client} {cpu : Cpu}
    {st : Client × Cpu}
    (h : uploadChunks cpuNet uploadID left i payload chunkCount (c, cpu) = (.ok (out, count), st)) :
    out = payload ++ blockBytes (keptSegments cpu.segments cpu.passages) := by
  induction left generalizing i payload chunkCount c cpu with
  | zero => cases h
  | succ left ih =>
    unfold uploadChunks at h
    obtain ⟨chunk, ⟨c₁, cpu₁⟩, hchunk, h⟩ := Eff.bind_eq_ok.mp h
    obtain ⟨s, hkept, rfl⟩ := uploadChunk_ok hchunk
    rw [hkept, blockBytes, List.flatMap_cons]
    dsimp only at h
    split at h
    · rename_i hlast
      rw [List.isEmpty_iff.mp hlast]
      cases h
      simp [keptSegments]
    · rw [ih h, blockBytes, List.append_assoc]

/-! ### The whole upload -/

theorem encodeStartUploadRequest_fn {ref : UInt16} {blockType : UInt8} {num : Int} {req : Bytes}
    (h : encodeStartUploadRequest ref blockType num = .ok req) : req.getD 10 0 = funcUploadStart := by
  unfold encodeStartUploadRequest at h
  obtain ⟨addr, haddr, h⟩ := Outcome.bind_eq_ok.mp h
  have hlen : addr.length = 8 := by
    unfold blockAddress at haddr
    split at haddr
    · cases haddr
    split at haddr
    · cases haddr
    · cases haddr
      simp [fiveDigits]
  rw [encodeMessage_eq (by simp [hlen]) (by simp)] at h
  cases h
  rfl

/-- An exchange of another function leaves the segments alone and takes its passage. -/
theorem other_exchange {ref : UInt16} {req : Bytes} (hfn : req.getD 10 0 ≠ funcUpload) {c c' : Client} {cpu cpu' : Cpu}
    {sections : Bytes × Bytes} (h : sendReceive cpuNet req ref (c, cpu) = (.ok sections, (c', cpu'))) :
    cpu'.segments = cpu.segments ∧ cpu'.passages = cpu.passages.tail := by
  obtain ⟨w₁, w₂, pdu, hwrite, hctx, hread, -, -⟩ := sendReceive_ok h
  obtain ⟨-, rfl⟩ := Prod.mk.inj hctx
  obtain ⟨-, rfl⟩ := Prod.mk.inj hread
  have hanswer : (cpu.answer req).2 = cpu := by
    unfold Cpu.answer
    simp only [if_neg hfn]
    split <;> rfl
  cases hhead : cpu.passages.headD .delivered with
  | requestLost err =>
    rw [writeTSDU_requestLost _ hhead] at hwrite
    cases hwrite
  | answerLost err =>
    rw [writeTSDU_answerLost _ hhead, hanswer] at hwrite
    cases hwrite
    exact ⟨rfl, rfl⟩
  | delivered =>
    rw [writeTSDU_delivered _ hhead, hanswer] at hwrite
    cases hwrite
    exact ⟨rfl, rfl⟩

/-- The block that `UploadBlock` returns is made of the segments whose answers arrive. -/
theorem uploadBlock_ok {blockType : UInt8} {num : Int} {c : Client} {cpu : Cpu} {block : BlockData} {st : Client × Cpu}
    (h : uploadBlock cpuNet blockType num (c, cpu) = (.ok block, st)) :
    block.data = blockBytes (keptSegments cpu.segments cpu.passages.tail) := by
  unfold uploadBlock at h
  split at h
  · cases h
  obtain ⟨ref, st₁, href, h⟩ := Eff.bind_eq_ok.mp h
  obtain ⟨hr, rfl⟩ := Prod.mk.inj href
  obtain ⟨req, st₂, hreq, h⟩ := Eff.bind_eq_ok.mp h
  obtain ⟨hq, rfl⟩ := Prod.mk.inj hreq
  obtain ⟨⟨param, data⟩, ⟨c₃, cpu₃⟩, hsend, h⟩ := Eff.bind_eq_ok.mp h
  obtain ⟨start, st₄, hstart, h⟩ := Eff.bind_eq_ok.mp h
  obtain ⟨hs, rfl⟩ := Prod.mk.inj hstart
  obtain ⟨st₅, h⟩ := Eff.deferred_eq_ok h
  obtain ⟨⟨payload, count⟩, st₆, hchunks, h⟩ := Eff.bind_eq_ok.mp h
  have hfn := encodeStartUploadRequest_fn (asValidation_eq_ok.mp hq)
  obtain ⟨hsegments, hpassages⟩ := other_exchange (by rw [hfn]; decide) hsend
  have hpayload := uploadChunks_ok hchunks
  rw [hsegments, hpassages, List.nil_append] at hpayload
  dsimp only at h
  split at h
  · cases h
  · cases h
    exact hpayload

/-- Upload from a CPU that serves a block in segments, whatever exchanges fail before the CPU receives the request or
    after it has answered. A block that is returned is the whole block exactly when every segment whose answer was
    lost is empty. The first passage is that of the start upload request. -/
theorem upload_block_whole_iff {blockType : UInt8} {num : Int} {c : Client} {cpu : Cpu} {block : BlockData}
    {st : Client × Cpu} (h : uploadBlock cpuNet blockType num (c, cpu) = (.ok block, st)) :
    block.data = blockBytes cpu.segments ↔ ∀ s ∈ lostSegments cpu.segments cpu.passages.tail, s.val = [] := by
  rw [uploadBlock_ok h]
  exact keptSegments_eq_iff cpu.segments cpu.passages.tail

/-- A CPU with a block of three segments, the second of them empty. -/
def threeSegments (passages : List Passage) : Cpu where
  uploadID := 7
  announced := [2, 0x31, 0x32]
  segments := [⟨[0x11], by decide⟩, ⟨[], by decide⟩, ⟨[0x33, 0x44], by decide⟩]
  errClass := 0xD2
  errCode := 0x09
  refuses := .inl (by decide)
  passages

/-- A request and the answer with the empty segment are lost. -/
theorem upload_block_whole_retried :
    (uploadBlock cpuNet 0x41 1 (⟨true, 240, 0, 0⟩, threeSegments
      [.delivered, .requestLost (.net true "i/o timeout"), .delivered, .answerLost (.net true "i/o timeout")])).1 =
        .ok ⟨0x41, 1, [0x11, 0x33, 0x44]⟩ ∧
      [0x11, 0x33, 0x44] = blockBytes (threeSegments []).segments := by
  have hrun : (uploadBlock cpuNet 0x41 1 (⟨true, 240, 0, 0⟩, threeSegments
      [.delivered, .requestLost (.net true "i/o timeout"), .delivered, .answerLost (.net true "i/o timeout")])).1 =
        .ok ⟨0x41, 1, [0x11, 0x33, 0x44]⟩ := by decide +kernel
  refine ⟨hrun, (upload_block_whole_iff (Prod.ext hrun rfl)).mpr ?_⟩
  decide +kernel

/-- The answer with the first segment is lost, and the retry gets the second one: the block comes back without its
    first byte and without an error. -/
theorem lost_answer_drops_segment :
    (uploadBlock cpuNet 0x41 1 (⟨true, 240, 0, 0⟩, threeSegments
      [.delivered, .answerLost (.net true "i/o timeout")])).1 = .ok ⟨0x41, 1, [0x33, 0x44]⟩ ∧
      blockBytes (threeSegments []).segments = [0x11, 0x33, 0x44] := by
  decide +kernel

end S7Comm
