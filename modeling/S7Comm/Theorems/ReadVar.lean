import S7Comm.Theorems.Header
import S7Comm.Theorems.Items
import S7Comm.Theorems.Jobs

/-! Read Var. The three sizes of an answer agree: the counter the session keeps, the size of its results and the
    length of what the encoder writes. The client decodes the results as the session made them. -/

namespace S7Comm
open Go

/-! ### One item -/

/-- A result as the session builds it: a refusal with no payload, or a payload whose length the length field
    states, unless it is too long for the field. -/
structure WellFormed (r : ReadVarResult) : Prop where
  refused : r.returnCode ≠ retCodeSuccess → r.transportSize = 0 ∧ r.rawLength = 0 ∧ r.data = []
  read : r.returnCode = retCodeSuccess → r.data.length ≤ 8191 →
    normalizeResponseDataLength r.transportSize r.rawLength = .ok r.data.length

theorem lengthField_toNat {n : Nat} (h : n ≤ 65535) : (lengthField n).toNat = n := by
  unfold lengthField
  rw [if_neg (by omega), uint16_toNat_ofNat (by omega)]

theorem wellFormed_refused {code : UInt8} (h : code ≠ retCodeSuccess) : WellFormed { returnCode := code } :=
  ⟨fun _ => ⟨rfl, rfl, rfl⟩, fun h' => absurd h' h⟩

/-- The length field of a readable item stands for its size, in the unit of its transport size. -/
theorem normalize_readTransport (transp : UInt8) {size : Nat} (h : size ≤ 8191) :
    normalizeResponseDataLength (readTransport transp size).1 (readTransport transp size).2 = .ok size := by
  have hbytes : (lengthField size).toNat = size := lengthField_toNat (by omega)
  have hbits : ((lengthField (size * 8)).toNat + 7) / 8 = size := by
    rw [lengthField_toNat (by omega)]
    omega
  unfold readTransport
  split_ifs <;>
    simp [normalizeResponseDataLength, dataTransportSizeBit, dataTransportSizeByte, dataTransportSizeInt,
      dataTransportSizeDInt, dataTransportSizeReal, dataTransportSizeOctet, hbytes, hbits]

theorem readResult_spec {mem : Memory} {spec : VarSpec} {t : Target} (h : Resolved mem spec t) :
    ∃ r, readResult t = .ok r ∧ r.returnCode = retCodeSuccess ∧ WellFormed r ∧ r.data = addressedBytes mem spec ∧
      r.data.length = if t.isBit then 1 else t.size := by
  have hloc := h.located
  have hfits := hloc.fits
  have hpos := hloc.size_pos
  unfold readResult addressedBytes
  rw [sliceOf_of_le (by omega) hfits, Outcome.ok_bind, h.reg_eq, Nat.add_sub_cancel_left]
  dsimp only
  by_cases hbit : t.isBit = true
  · have hspec : spec.isBit = true := h.isBit_eq ▸ hbit
    have htransp : t.transp = transportSizeBit := by
      rw [h.transp_eq]
      simpa [VarSpec.isBit] using hspec
    have hstart : t.start < t.reg.data.length := by omega
    have hsrc : indexAt ((t.reg.data.drop t.start).take t.size) 0 = .ok t.reg.data[t.start] := by
      rw [indexAt_of_lt (by simp; omega)]
      simp
    have hbyte : (t.reg.data.getD spec.byteStart 0) = t.reg.data[t.start] := by
      simp [← hloc.start_eq, hstart]
    have hone : normalizeResponseDataLength dataTransportSizeBit 1 = .ok 1 := by decide
    rw [if_pos htransp, hsrc, Outcome.ok_bind, if_pos hspec, if_pos hbit, shiftRight_and_one hloc.bit_lt,
      hloc.bit_eq hspec, hbyte]
    exact ⟨_, rfl, rfl, ⟨fun hne => absurd rfl hne, fun _ _ => hone⟩, rfl, rfl⟩
  · have hspec : ¬spec.isBit = true := h.isBit_eq ▸ hbit
    have htransp : ¬t.transp = transportSizeBit := by
      rw [h.transp_eq]
      simpa [VarSpec.isBit] using hspec
    have hlen : ((t.reg.data.drop t.start).take t.size).length = t.size := by
      simp
      omega
    rw [if_neg htransp, if_neg hspec, if_neg hbit, ← hloc.start_eq, ← hloc.size_eq]
    refine ⟨_, rfl, rfl, ⟨fun hne => absurd rfl hne, fun _ hle => ?_⟩, rfl, hlen⟩
    dsimp only at hle ⊢
    rw [hlen] at hle ⊢
    exact normalize_readTransport t.transp hle

/-- The ranges of a DBREAD item are read in order, or the whole item is refused. -/
theorem dbReadData_spec (mem : Memory) (ranges : List DBReadArea) (data : Bytes) :
    (∃ code, dbReadData mem ranges data = .ok (.error code) ∧ code ≠ retCodeSuccess) ∨
      dbReadData mem ranges data = .ok (.ok (data ++ rangesBytes mem ranges)) := by
  induction ranges generalizing data with
  | nil => exact .inr (by simp [dbReadData, rangesBytes])
  | cons r ranges ih =>
    unfold dbReadData
    cases hreg : mem.regions { area := areaDB, db := r.dbNumber } with
    | none => exact .inl ⟨_, rfl, by decide⟩
    | some reg =>
      dsimp only
      by_cases hdb : r.dbNumber = 0
      · rw [if_pos hdb]
        exact .inl ⟨_, rfl, by decide⟩
      rw [if_neg hdb]
      by_cases hn : r.length.toNat = 0 ∨ r.start.toNat + r.length.toNat > reg.data.length
      · rw [if_pos hn]
        exact .inl ⟨_, rfl, by decide⟩
      rw [if_neg hn, sliceOf_of_le (by omega) (by omega), Outcome.ok_bind, Nat.add_sub_cancel_left]
      rcases ih (data ++ [retCodeSuccess] ++ (reg.data.drop r.start.toNat).take r.length.toNat) with hrest | hrest
      · exact .inl hrest
      · refine .inr (hrest.trans ?_)
        simp [rangesBytes, rangeBytes, hreg]

theorem dbRead_spec (mem : Memory) (ranges : List DBReadArea) :
    ∃ r, dbRead mem ranges = .ok r ∧ WellFormed r ∧
      (r.returnCode = retCodeSuccess → r.data = rangesBytes mem ranges) := by
  unfold dbRead
  rcases dbReadData_spec mem ranges [] with ⟨code, hdata, hcode⟩ | hdata
  · rw [hdata]
    exact ⟨_, rfl, wellFormed_refused hcode, fun h => absurd h hcode⟩
  · rw [hdata, List.nil_append]
    refine ⟨_, rfl, ⟨fun hne => absurd rfl hne, fun _ hle => ?_⟩, fun _ => rfl⟩
    have hfield := lengthField_toNat (n := (rangesBytes mem ranges).length) (Nat.le_trans hle (by decide))
    simp [normalizeResponseDataLength, dataTransportSizeBit, dataTransportSizeByte, dataTransportSizeInt,
      dataTransportSizeDInt, dataTransportSizeReal, dataTransportSizeOctet, hfield]

/-- Every item gets a well-formed result, and a successful one carries the memory bytes of the item. -/
theorem itemResult_spec (mem : Memory) (spec : VarSpec) (ranges : Option (List DBReadArea)) :
    ∃ r, itemResult mem spec ranges = .ok r ∧ WellFormed r ∧
      (r.returnCode = retCodeSuccess → r.data = itemBytes mem spec ranges) := by
  unfold itemResult itemBytes
  by_cases hdb : spec.syntaxID = syntaxIDDBRead
  · rw [if_pos hdb, if_pos hdb]
    exact dbRead_spec mem _
  · rw [if_neg hdb, if_neg hdb]
    cases hres : resolve mem spec with
    | error code =>
      have hcode := resolve_error_ne hres
      exact ⟨_, rfl, wellFormed_refused hcode, fun h => absurd h hcode⟩
    | ok t =>
      obtain ⟨r, hr, -, hwf, hdata, -⟩ := readResult_spec (resolve_ok hres)
      exact ⟨r, hr, hwf, fun _ => hdata⟩

/-! ### The size of an answer -/

theorem length_readVarResultBytes (items : List ReadVarResult) :
    (readVarResultBytes items).length = readVarResultsSize items := by
  induction items with
  | nil => rfl
  | cons item items ih =>
    cases items with
    | nil =>
      simp [readVarResultBytes, readVarResultsSize, readVarResultSize]
      omega
    | cons next items =>
      unfold readVarResultBytes readVarResultsSize readVarResultSize
      by_cases hodd : item.data.length % 2 ≠ 0
      · simp [hodd, ih]
        omega
      · simp [hodd, ih]
        omega

section Items
variable {mem : Memory} {spec : VarSpec} {specs : List VarSpec} {range : Option (List DBReadArea)}
  {ranges : List (Option (List DBReadArea))} {r : ReadVarResult} (pduSize used : Nat)

/-- One turn of the item loop: it counts the size of the item's result, and stops early only when the answer is
    already past the PDU. -/
theorem readItems_cons (hr : itemResult mem spec range = .ok r) :
    readItems mem pduSize (spec :: specs) (range :: ranges) used = .ok none ∧
        pduSize < used + readVarResultSize r specs.isEmpty ∨
      readItems mem pduSize (spec :: specs) (range :: ranges) used = (do
        let rest ← readItems mem pduSize specs ranges (used + readVarResultSize r specs.isEmpty)
        pure (rest.map fun (results, used) => (r :: results, used))) := by
  have hlast : (specs ≠ []) ↔ (!specs.isEmpty) = true := by simp
  unfold itemResult at hr
  rw [readItems]
  by_cases hdb : spec.syntaxID = syntaxIDDBRead
  · rw [if_pos hdb] at hr ⊢
    rw [show indexAt (range :: ranges) 0 = .ok range from rfl, Outcome.ok_bind, hr, Outcome.ok_bind]
    have hused : (if specs ≠ [] ∧ r.data.length % 2 ≠ 0 then used + 4 + r.data.length + 1
        else used + 4 + r.data.length) = used + readVarResultSize r specs.isEmpty := by
      simp only [readVarResultSize, hlast]
      split <;> omega
    dsimp only
    rw [hused]
    split
    · rename_i hgt
      exact .inl ⟨rfl, hgt⟩
    · exact .inr rfl
  · rw [if_neg hdb] at hr ⊢
    cases hres : resolve mem spec with
    | error code =>
      rw [hres] at hr
      cases hr
      have hfour : readVarResultSize { returnCode := code } specs.isEmpty = 4 := by simp [readVarResultSize]
      rw [hfour]
      exact .inr rfl
    | ok t =>
      rw [hres] at hr
      obtain ⟨r', hr', -, -, -, hlen⟩ := readResult_spec (resolve_ok hres)
      dsimp only at hr ⊢
      rw [hr] at hr'
      cases hr'
      have hneed : (if specs ≠ [] ∧ (if t.isBit then 5 else 4 + t.size) % 2 ≠ 0
          then (if t.isBit then 5 else 4 + t.size) + 1 else if t.isBit then 5 else 4 + t.size) =
          readVarResultSize r specs.isEmpty := by
        simp only [readVarResultSize, hlast, hlen]
        by_cases hbit : t.isBit = true
        · simp only [hbit, ↓reduceIte]
        · have hmod : (4 + t.size) % 2 = t.size % 2 := by omega
          simp only [hbit, Bool.false_eq_true, ↓reduceIte, hmod]
      rw [hneed]
      split
      · rename_i hgt
        exact .inl ⟨rfl, hgt⟩
      · rw [hr]
        exact .inr rfl

variable (mem) in
/-- The item loop computes the results of all items, or stops early when their size is past the PDU. -/
theorem readItems_spec (h : ranges.length = specs.length) :
    ∃ results, List.Forall₂ (fun p r => itemResult mem p.1 p.2 = .ok r) (specs.zip ranges) results ∧
      (readItems mem pduSize specs ranges used = .ok none ∧ pduSize < used + readVarResultsSize results ∨
        readItems mem pduSize specs ranges used = .ok (some (results, used + readVarResultsSize results))) := by
  induction specs generalizing ranges used with
  | nil => exact ⟨[], .nil, .inr rfl⟩
  | cons spec specs ih =>
    cases ranges with
    | nil => cases h
    | cons range ranges =>
      obtain ⟨r, hr, -⟩ := itemResult_spec mem spec range
      obtain ⟨results, hall, hrest⟩ := ih (used + readVarResultSize r specs.isEmpty) (Nat.succ.inj h)
      have hlen : results.length = specs.length := by
        rw [← hall.length_eq, List.length_zip, Nat.succ.inj h, Nat.min_self]
      have hsize : readVarResultsSize (r :: results) =
          readVarResultSize r specs.isEmpty + readVarResultsSize results := by
        have hempty : results.isEmpty = specs.isEmpty := by
          rw [Bool.eq_iff_iff, List.isEmpty_iff_length_eq_zero, List.isEmpty_iff_length_eq_zero, hlen]
        rw [readVarResultsSize, hempty]
      refine ⟨r :: results, .cons hr hall, ?_⟩
      rw [hsize]
      rcases readItems_cons pduSize used hr with ⟨hstop, hgt⟩ | hstep
      · exact .inl ⟨hstop, by omega⟩
      · rw [hstep]
        rcases hrest with ⟨hnone, hgt⟩ | hsome
        · exact .inl ⟨by rw [hnone]; rfl, by omega⟩
        · exact .inr (by rw [hsome, Nat.add_assoc]; rfl)

end Items

/-- A job that parses is refused whole when its results are past the PDU, and answered with them otherwise. -/
theorem read_eq (s : Session) (ref : UInt16) {param : Bytes} {specs : List VarSpec}
    (h : parseReadVarRequest param = .ok specs) :
    ∃ ranges results, parseReadVarDBRead param = .ok ranges ∧ ranges.length = specs.length ∧
      List.Forall₂ (fun p r => itemResult s.mem p.1 p.2 = .ok r) (specs.zip ranges) results ∧
      read s ref param =
        if s.pduSize < 14 + readVarResultsSize results then
          .ok (ackData ref errClassSupplies errCodeFrames [funcReadVar] [])
        else encodeReadVarResponse ref results := by
  obtain ⟨ranges, hranges, hlen, -⟩ := parseReadVarDBRead_spec h
  obtain ⟨results, hall, hitems⟩ := readItems_spec s.mem s.pduSize 14 hlen
  have hparam : sliceOf param 0 1 = .ok [funcReadVar] := by
    rcases parseVarSpecs_spec param funcReadVar with ⟨e, he⟩ | ⟨_, -, -, -, hfn, -⟩
    · exact absurd (h.symm.trans he) (by simp)
    · cases param with
      | nil => cases hfn
      | cons fn param =>
        cases hfn
        simp [sliceOf, slice]
  have hrefusal : encodeAckData ref errClassSupplies errCodeFrames [funcReadVar] [] =
      .ok (ackData ref errClassSupplies errCodeFrames [funcReadVar] []) := encodeAckData_eq (by simp) (by simp)
  refine ⟨ranges, results, hranges, hlen, hall, ?_⟩
  unfold read
  rw [h, Outcome.ok_bind, hranges, Outcome.ok_bind]
  simp only [hparam, Outcome.ok_bind, hrefusal]
  rw [show ackDataHeaderSize + 2 = 14 from rfl]
  rcases hitems with ⟨hnone, hgt⟩ | hsome
  · rw [hnone, if_pos hgt]
    rfl
  · rw [hsome]
    rfl

end S7Comm
