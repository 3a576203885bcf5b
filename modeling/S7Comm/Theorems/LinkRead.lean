import S7Comm.Theorems.LinkBase

/-! `ReadArea` against the server. Every chunk of a read that stays in the region comes back with its bytes; the first
    chunk that does not is refused with 0x05, and what was read before it is a prefix of the region from the start
    address on. -/

namespace S7Comm
open Go

/-! ### The item on the server -/

section Item
variable {mem : Memory} {area : UInt8} {db start size : Nat} {key : AreaKey} {reg : Region}

/-- The result of the item: its bytes, or 0x05 when it passes the end of the region. -/
theorem itemResult_byteSpec (h : Addressable db start size) (hpos : 0 < size)
    (hplain : Area.timerOrCounter area = false) (hkey : keyOf area db = .ok key) (hreg : mem.regions key = some reg) :
    ∃ r, (∀ range, itemResult mem (byteSpec area db start size) range = .ok r) ∧ WellFormed r ∧ r.data.length ≤ size ∧
      (start + size ≤ reg.data.length ∧ r.returnCode = retCodeSuccess ∧ r.data = (reg.data.drop start).take size ∨
        reg.data.length < start + size ∧ r.returnCode = retCodeAddressFault) := by
  have hres := resolve_byteSpec h hpos hplain hkey hreg
  have hsyn : ¬(byteSpec area db start size).syntaxID = syntaxIDDBRead :=
    show ¬syntaxIDS7Any = syntaxIDDBRead by decide
  unfold itemResult
  simp only [if_neg hsyn]
  by_cases hend : start + size > reg.data.length
  · rw [if_pos hend] at hres
    rw [hres]
    exact ⟨_, fun _ => rfl, wellFormed_refused (by decide), Nat.zero_le _, .inr ⟨hend, rfl⟩⟩
  · rw [if_neg hend] at hres
    have hfits := Nat.not_lt.mp hend
    obtain ⟨r, hr, hcode, hwf, -, hlen⟩ := readResult_spec (resolve_ok hres)
    rw [hres]
    refine ⟨r, fun _ => hr, hwf, Nat.le_of_eq hlen, .inl ⟨hfits, hcode, ?_⟩⟩
    unfold readResult at hr
    rw [sliceOf_of_le (Nat.le_add_right _ _) hfits, Outcome.ok_bind,
      if_neg (show ¬transportSizeByte = transportSizeBit by decide), Nat.add_sub_cancel_left] at hr
    cases hr
    rfl

end Item

/-! ### The answer -/

section Answer
variable (cfg : ServerConfig) {s : Session} {ref : UInt16} {area : UInt8} {db start size : Nat} {r : ReadVarResult}

/-- A Read Var job of one item whose result is `r` is refused when `r` is past the PDU, and answered with it
    otherwise. -/
theorem read_item {param : Bytes} {spec : VarSpec} (hparse : parseReadVarRequest param = .ok [spec])
    (hr : ∀ range, itemResult s.mem spec range = .ok r) :
    read s ref param =
      if s.pduSize < 14 + readVarResultsSize [r] then
        .ok (ackData ref errClassSupplies errCodeFrames [funcReadVar] [])
      else encodeReadVarResponse ref [r] := by
  obtain ⟨ranges, results, -, hlen, hall, heq⟩ := read_eq s ref hparse
  obtain ⟨range, rfl⟩ := List.length_eq_one_iff.mp hlen
  obtain ⟨r', rs, hr', hrs, rfl⟩ := List.forall₂_cons_left_iff.mp hall
  cases hrs
  rw [hr range] at hr'
  cases hr'
  exact heq

/-- The answer to a Read Var job of one item whose result is `r`. -/
theorem handle_read_item {item : Bytes} {spec : VarSpec} (hitem : item.length ≤ 65533)
    (hparse : parseReadVarRequest ([funcReadVar, 1] ++ item) = .ok [spec])
    (hr : ∀ range, itemResult s.mem spec range = .ok r) (hfits : 18 + r.data.length ≤ s.pduSize)
    (hle : r.data.length ≤ 65531) :
    handle cfg (message rosctrJob ref ([funcReadVar, 1] ++ item) []) s =
      (.ok (some (ackData ref 0 0 [funcReadVar, 1] (readVarResultBytes [r])), true), s) := by
  have hsize : readVarResultsSize [r] = 4 + r.data.length := by simp [readVarResultsSize, readVarResultSize]
  have hread : read s ref ([funcReadVar, 1] ++ item) =
      .ok (ackData ref 0 0 [funcReadVar, 1] (readVarResultBytes [r])) := by
    rw [read_item hparse hr, hsize, if_neg (by omega), encodeReadVarResponse, if_neg (by simp),
      encodeAckData_eq (by simp) (by rw [length_readVarResultBytes, hsize]; omega)]
    rfl
  rw [handle_message (by simp; omega) (by simp)]
  exact dispatch_read rfl hread

theorem handle_read (h : Addressable db start size)
    (hr : ∀ range, itemResult s.mem (byteSpec area db start size) range = .ok r)
    (hfits : 18 + r.data.length ≤ s.pduSize) (hle : r.data.length ≤ 65531) :
    handle cfg (message rosctrJob ref ([funcReadVar, 1] ++ byteItem area db start size) []) s =
      (.ok (some (ackData ref 0 0 [funcReadVar, 1] (readVarResultBytes [r])), true), s) :=
  handle_read_item cfg (by simp) (parseVarSpecs_byteItem funcReadVar h) hr hfits hle

/-- What `ReadArea` returns when an item of the server passes the end of the region. -/
def addressFault (reqLen : Nat) (result : Bytes) : ReadResult where
  status := .rejected
  requestedLength := reqLen
  returnedLength := result.length
  data := result
  message := ((returnCodeError retCodeAddressFault).map GoError.error).getD ""
  itemStatus := itemReturnCodeString retCodeAddressFault
  returnCode := retCodeAddressFault

theorem readAnswer_link (reqLen : Nat) (result : Bytes) {chunkSize : Nat} (hwf : WellFormed r)
    (hlen : r.data.length ≤ chunkSize) (hle : r.data.length ≤ 8191) :
    (r.returnCode = retCodeSuccess →
      readAnswer reqLen result chunkSize [funcReadVar, 1] (readVarResultBytes [r]) = .ok (.ok r.data)) ∧
    (r.returnCode = retCodeAddressFault →
      readAnswer reqLen result chunkSize [funcReadVar, 1] (readVarResultBytes [r]) =
        .ok (.error (addressFault reqLen result))) := by
  have hparse : parseReadVarResponse [funcReadVar, 1] (readVarResultBytes [r]) = .ok [r.item] :=
    parseReadVarResponse_eq (by simp) (by simpa using hwf) (by simpa using hle)
  unfold readAnswer
  rw [hparse]
  refine ⟨fun hcode => ?_, fun hcode => ?_⟩
  · have hitem : r.item.returnCode = retCodeSuccess := hcode
    simp only [hitem]
    rw [show returnCodeError retCodeSuccess = none from rfl]
    exact if_neg (Nat.not_lt.mpr hlen)
  · have hitem : r.item.returnCode = retCodeAddressFault := hcode
    simp only [hitem]
    rfl

end Answer

/-! ### Chunks -/

section Chunks
variable (cfg : ServerConfig) {p : Nat} {c : Client} {w : Link} {addr : Address} {db : Nat} {reg : Region}

/-- A chunk within the region is read, and one past its end is refused. -/
theorem readChunk_link (hw : Linked p c w) (hp : p ≤ 4096) (hreg : Registered w.session.mem addr db reg)
    {offset chunkSize : Nat} (hoff : offset ≤ maxS7AnyByteOffset) (hpos : 0 < chunkSize) (hfits : chunkSize + 24 ≤ p)
    (reqLen : Nat) (first : Bool) (result : Bytes) :
    ∃ c' w', Linked p c' w' ∧ w'.session = w.session ∧ (w.Within p → w'.Within p) ∧
      readChunk (serverNet cfg) addr reqLen first offset result chunkSize (c, w) =
        (.ok (if offset + chunkSize ≤ reg.data.length then .ok ((reg.data.drop offset).take chunkSize)
          else .error (addressFault reqLen result)), (c', w')) := by
  obtain ⟨hdb, hdble, hplain, key, hkey, hfound⟩ := hreg
  have haddr : Addressable db offset chunkSize := ⟨hdble, hoff, by omega⟩
  obtain ⟨r, hr, hwf, hlen, hcase⟩ := itemResult_byteSpec haddr hpos hplain hkey hfound
  obtain ⟨ref, pduRef, href⟩ : ∃ ref pduRef, nextPDURef (c, w) = (.ok ref, ({ c with pduRef }, w)) :=
    ⟨_, _, nextPDURef_apply c w⟩
  obtain ⟨hok, hrefused⟩ := readAnswer_link reqLen result hwf hlen (by omega)
  have hsize : (readVarResultBytes [r]).length = 4 + r.data.length := by
    simp [length_readVarResultBytes, readVarResultsSize, readVarResultSize]
  have hreq : (message rosctrJob ref ([funcReadVar, 1] ++ byteItem addr.area db offset chunkSize) []).length = 24 :=
    length_readRequest ref
  have hsend := sendReceive_link cfg ref (c := { c with pduRef }) hw.idle hw.connected
    (by rw [hreq, hw.client]; omega) (handle_read cfg haddr hr (by rw [hw.session]; omega) (by omega))
  rw [responseSections_ackData (by rw [hsize]; simp; omega)] at hsend
  have hout : (ackData ref 0 0 [funcReadVar, 1] (readVarResultBytes [r])).length ≤ p := by
    simp only [length_ackData, hsize, List.length_cons, List.length_nil]
    omega
  refine ⟨{ c with pduRef }, w.after w.session _ _, ⟨hw.connected, hw.client, hw.session, hw.idle.after _ _ _⟩, rfl,
    fun h => h.after _ (Nat.le_trans (Nat.le_of_eq hreq) (by omega)) hout, ?_⟩
  unfold readChunk
  rw [Eff.bind_ok (Eff.attempt_ok (chunkGate_link cfg first))]
  dsimp only
  rw [Eff.bind_ok href, hdb, encodeReadVarRequest_eq ref haddr]
  dsimp only
  rw [Eff.bind_ok (Eff.attempt_ok hsend)]
  dsimp only
  rcases hcase with ⟨hend, hcode, hdata⟩ | ⟨hend, hcode⟩
  · rw [hok hcode, if_pos hend, hdata]
    rfl
  · rw [hrefused hcode, if_neg (Nat.not_le.mpr hend)]
    rfl

/-- The chunk loop. By induction on the chunks: those read so far are in `result`, and the rest starts at `offset`. -/
theorem readChunks_link (hp : p ≤ 4096) (reqLen : Nat) {chunks : List Nat}
    (hall : ∀ n ∈ chunks, 0 < n ∧ n + 24 ≤ p) (offset : Nat) (hend : offset + chunks.sum ≤ maxS7AnyByteOffset + 1)
    (first : Bool) (result : Bytes) (hw : Linked p c w) (hreg : Registered w.session.mem addr db reg) :
    ∃ out c' w', readChunks (serverNet cfg) addr reqLen chunks first offset result (c, w) = (.ok out, (c', w')) ∧
      w'.session = w.session ∧ (w.Within p → w'.Within p) ∧
      (offset + chunks.sum ≤ reg.data.length →
        out = readOutcome reqLen (result ++ (reg.data.drop offset).take chunks.sum)) ∧
      (chunks ≠ [] → reg.data.length < offset + chunks.sum →
        ∃ done, done <+: reg.data.drop offset ∧ out = addressFault reqLen (result ++ done)) := by
  induction chunks generalizing c w first offset result with
  | nil => exact ⟨_, c, w, rfl, rfl, id, fun _ => by simp, fun h => absurd rfl h⟩
  | cons n chunks ih =>
    obtain ⟨⟨hpos, hn⟩, hrest⟩ := List.forall_mem_cons.mp hall
    rw [List.sum_cons] at hend ⊢
    obtain ⟨c₁, w₁, hw₁, hsession, hwithin, hchunk⟩ :=
      readChunk_link cfg hw hp hreg (show offset ≤ maxS7AnyByteOffset by omega) hpos hn reqLen first result
    unfold readChunks
    rw [Eff.bind_ok hchunk]
    by_cases hfits : offset + n ≤ reg.data.length
    · obtain ⟨out, c', w', hrun, hsession', hwithin', hread, hrefused⟩ :=
        ih hrest (offset + n) (by omega) false (result ++ (reg.data.drop offset).take n) hw₁
          (hsession ▸ hreg)
      rw [if_pos hfits]
      refine ⟨out, c', w', hrun, hsession'.trans hsession, hwithin' ∘ hwithin, fun hle => ?_, fun _ hgt => ?_⟩
      · rw [hread (by omega), List.take_add, List.drop_drop, List.append_assoc]
      · have hne : chunks ≠ [] := by
          rintro rfl
          simp at hgt
          omega
        obtain ⟨done, ⟨rest, hdone⟩, rfl⟩ := hrefused hne (by omega)
        refine ⟨(reg.data.drop offset).take n ++ done, ⟨rest, ?_⟩, by rw [List.append_assoc]⟩
        rw [List.append_assoc, hdone, ← List.drop_drop, List.take_append_drop]
    · rw [if_neg hfits]
      refine ⟨_, c₁, w₁, rfl, hsession, hwithin, fun hle => ?_, fun _ _ => ⟨[], List.nil_prefix, ?_⟩⟩
      · omega
      · rw [List.append_nil]

end Chunks

/-! ### ReadArea -/

/-- Reading from the server. A span inside the region comes back as it stands in memory; one that passes the end is
    refused with 0x05, with a prefix of what lies from its start on. Memory is unchanged, and no PDU of the call is
    longer than the negotiated size. -/
theorem read_area_end_to_end (cfg : ServerConfig) (addr : Address) {p : Nat} (hp : 25 ≤ p) (hp' : p ≤ 4096)
    {c : Client} {s : Session} (hconn : c.connected = true) (hc : c.pduSize = p) (hs : s.pduSize = p)
    {key : AreaKey} {reg : Region}
    (harea : addr.area = areaInputs ∨ addr.area = areaOutputs ∨ addr.area = areaMerkers ∨ addr.area = areaDB)
    (hkey : keyOf addr.area addr.dbNumber = .ok key) (hreg : s.mem.regions key = some reg)
    (hvalid : validateAddress addr = .ok ()) (hrange : validateRangeEnd addr.start addr.size = .ok ()) :
    ∃ out c' w', readArea (serverNet cfg) addr (c, { session := s }) = (.ok out, (c', w')) ∧
      w'.session.mem = s.mem ∧ (∀ req ∈ w'.requests, req.length ≤ p) ∧ (∀ ans ∈ w'.answers, ans.length ≤ p) ∧
      (addr.start + addr.size ≤ reg.data.length →
        out.status = .success ∧ out.data = (reg.data.drop addr.start.toNat).take addr.size.toNat) ∧
      (0 < addr.size → addr.start + addr.size > reg.data.length →
        out.status = .rejected ∧ out.returnCode = 0x05 ∧ out.data <+: reg.data.drop addr.start.toNat ∧
          (addr.start > reg.data.length → out.data = [])) := by
  obtain ⟨db, start, size, hdb, hstart, hsize, hdble⟩ := validateAddress_ok hvalid
  have hlast := validateRangeEnd_ok hrange
  have hmem : Registered s.mem addr db reg := ⟨hdb, hdble, timerOrCounter_eq_false harea, key, hdb ▸ hkey, hreg⟩
  have hchunk : maxChunkData c.pduSize readVarRequestOverhead = p - 24 := by
    rw [hc]
    exact maxChunkData_eq hp
  obtain ⟨hsum, hall⟩ := planReadChunks_spec size (show 0 < p - 24 by omega)
  obtain ⟨out, c', w', hrun, hsession, hwithin, hread, hrefused⟩ :=
    readChunks_link cfg (c := c) (w := { session := s }) hp' size
      (fun n hn => ⟨(hall n hn).1, by have := (hall n hn).2; omega⟩) start (by omega) true []
      ⟨hconn, hc, hs, rfl, rfl⟩ hmem
  obtain ⟨hreqs, hans⟩ := hwithin ⟨by simp, by simp⟩
  rw [hsum] at hread hrefused
  rw [hstart, hsize, Int.toNat_natCast, Int.toNat_natCast]
  refine ⟨out, c', w', ?_, by rw [hsession], hreqs, hans, fun hle => ?_, fun hpos hgt => ?_⟩
  · unfold readArea
    rw [hvalid, Eff.bind_ok (Eff.lift_apply _ _), hrange, Eff.bind_ok (Eff.lift_apply _ _),
      Eff.bind_ok (Eff.get_apply _)]
    dsimp only
    rw [hchunk, hstart, hsize, Int.toNat_natCast, Int.toNat_natCast]
    exact hrun
  · have hlen : ((reg.data.drop start).take size).length = size := by
      simp
      omega
    rw [hread (by omega), List.nil_append]
    refine ⟨?_, rfl⟩
    unfold readOutcome classifyReadOutcome
    rw [hlen]
    split_ifs <;> first | rfl | omega
  · have hne : planReadChunks size (p - 24) ≠ [] := by
      intro hnil
      rw [hnil, List.sum_nil] at hsum
      omega
    obtain ⟨done, hdone, rfl⟩ := hrefused hne (by omega)
    refine ⟨rfl, rfl, hdone, fun hgt' => ?_⟩
    rw [List.drop_eq_nil_of_le (by omega)] at hdone
    exact List.prefix_nil.mp hdone

/-- Three bytes of DB1 in chunks of two, with a PDU size of 26. -/
theorem read_area_end_to_end_db1 :
    ∃ out c' w', readArea (serverNet defaultConfig) ⟨areaDB, 1, 0, 3⟩
        (⟨true, 26, 0, 0⟩, { session := ⟨dbSession.mem, 26⟩ }) = (.ok out, (c', w')) ∧
      out.status = .success ∧ out.data = [0x11, 0x22, 0x33] := by
  have hkey : keyOf areaDB 1 = .ok { area := areaDB, db := 1 } := rfl
  have hreg : dbSession.mem.regions { area := areaDB, db := 1 } = some ⟨[0x11, 0x22, 0x33], false⟩ := rfl
  obtain ⟨out, c', w', hrun, -, -, -, hread, -⟩ :=
    read_area_end_to_end defaultConfig ⟨areaDB, 1, 0, 3⟩ (p := 26) (by decide) (by decide) (c := ⟨true, 26, 0, 0⟩)
      (s := ⟨dbSession.mem, 26⟩) rfl rfl rfl (.inr (.inr (.inr rfl))) hkey hreg rfl rfl
  exact ⟨out, c', w', hrun, hread (by decide)⟩

end S7Comm
