import S7Comm.Theorems.JobGrammar

/-! The data sections of Write Var jobs and Read Var answers: the two decoders, written separately, each accept exactly
    the series of their items. -/

namespace S7Comm
open Go

/-! ### One item -/

section Item
variable {data payload fill : Bytes} {off : Nat} {returnCode transportSize : UInt8} {rawLength : UInt16}

@[simp] theorem length_dataHeader : (dataHeader returnCode transportSize rawLength).length = 4 := by
  simp [dataHeader]

theorem standsAt_dataHeader : StandsAt data off (dataHeader returnCode transportSize rawLength) ↔
    StandsAt data off [returnCode] ∧ StandsAt data (off + 1) [transportSize] ∧
      StandsAt data (off + 2) (putUint16 rawLength) := by
  unfold dataHeader
  rw [standsAt_append, standsAt_cons, and_assoc]
  rfl

theorem standsAt_dataItem :
    StandsAt data off (dataHeader returnCode transportSize rawLength ++ (payload ++ fill)) ↔
      (StandsAt data off [returnCode] ∧ StandsAt data (off + 1) [transportSize] ∧
        StandsAt data (off + 2) (putUint16 rawLength)) ∧
      StandsAt data (off + 4) payload ∧ StandsAt data (off + 4 + payload.length) fill := by
  rw [standsAt_append, standsAt_append, standsAt_dataHeader, length_dataHeader]

/-- The header of an item determines the bytes that follow it up to the fill byte's value, and a section has one
    value there. -/
theorem DataItem.unique {last : Bool} {code' transport' : UInt8} {raw' : UInt16} {payload' e e' : Bytes}
    (h : DataItem last returnCode transportSize rawLength payload e) (h' : DataItem last code' transport' raw' payload' e')
    (hsize : returnCode = code' → transportSize = transport' → rawLength = raw' → payload.length = payload'.length)
    (hat : StandsAt data off e) (hat' : StandsAt data off e') :
    returnCode = code' ∧ transportSize = transport' ∧ rawLength = raw' ∧ payload = payload' ∧ e = e' := by
  obtain ⟨fill, hfill, rfl⟩ := h
  obtain ⟨fill', hfill', rfl⟩ := h'
  obtain ⟨⟨hc, ht, hr⟩, hp, hf⟩ := standsAt_dataItem.mp hat
  obtain ⟨⟨hc', ht', hr'⟩, hp', hf'⟩ := standsAt_dataItem.mp hat'
  obtain rfl : returnCode = code' := List.singleton_inj.mp (hc.unique hc' rfl)
  obtain rfl : transportSize = transport' := List.singleton_inj.mp (ht.unique ht' rfl)
  obtain rfl : rawLength = raw' := by
    have := uint16At_eq_ok_iff (ε := Unit).mpr hr
    rw [uint16At_eq_ok_iff.mpr hr'] at this
    exact (Outcome.ok.inj this).symm
  have hlen := hsize rfl rfl rfl
  obtain rfl := hp.unique hp' hlen
  obtain rfl := hf.unique hf' (by rw [hfill, hfill'])
  exact ⟨rfl, rfl, rfl, rfl, rfl⟩

theorem exists_fill {n : Nat} (h : off + n ≤ data.length) : ∃ fill : Bytes, fill.length = n ∧ StandsAt data off fill :=
  ⟨_, by rw [List.length_take, List.length_drop]; omega, standsAt_take_drop h⟩

end Item

/-! ### Write Var -/

theorem writeDataBytes_eq_ok {transport : UInt8} {raw : UInt16} {n : Nat} :
    writeDataBytes transport raw = .ok n ↔
      (transport ∈ [dataTransportSizeBit, dataTransportSizeDInt, dataTransportSizeReal, dataTransportSizeOctet] ∧
        raw.toNat = n) ∨
      (transport ∈ [dataTransportSizeByte, dataTransportSizeInt] ∧ raw.toNat = 8 * n) := by
  have hmod : raw % 8 = 0 ↔ raw.toNat % 8 = 0 := by
    rw [← UInt16.toNat_inj, UInt16.toNat_mod]
    rfl
  have hdisjoint : transport ∈ [dataTransportSizeByte, dataTransportSizeInt] →
      transport ∉ [dataTransportSizeBit, dataTransportSizeDInt, dataTransportSizeReal, dataTransportSizeOctet] := by
    intro h
    simp only [List.mem_cons, List.not_mem_nil, or_false] at h
    rcases h with rfl | rfl <;> decide
  simp only [List.mem_cons, List.not_mem_nil, or_false] at hdisjoint ⊢
  unfold writeDataBytes
  split
  · rename_i h
    have hnot : ¬(transport = dataTransportSizeByte ∨ transport = dataTransportSizeInt) := fun hb => hdisjoint hb h
    simp [h, hnot]
  · rename_i h
    split
    · rename_i hb
      split
      · rename_i hr
        rw [Ne, hmod] at hr
        simp only [h, hb, false_and, true_and, false_or, reduceCtorEq, false_iff]
        omega
      · rename_i hr
        rw [not_not, hmod] at hr
        simp only [h, hb, false_and, true_and, false_or, Outcome.ok.injEq]
        omega
    · rename_i hb
      simp [h, hb]

theorem itemDataBytes_eq_ok {i : Nat} {transport : UInt8} {raw : UInt16} {n : Nat} :
    itemDataBytes i transport raw = .ok n ↔ writeDataBytes transport raw = .ok n := by
  unfold itemDataBytes
  cases writeDataBytes transport raw <;> simp

/-- The decoder of Write Var data returns the items that stand in the section from `off` on. -/
theorem writeDataItems_eq_ok {data : Bytes} {left i off last : Nat} {items : List WriteVarData}
    (hoff : left = 0 → off ≤ data.length) :
    writeDataItems data left i off = .ok (items, last) ↔
      items.length = left ∧ ∃ e, Series WrittenItem items e ∧ StandsAt data off e ∧ last = off + e.length := by
  induction left generalizing i off last items with
  | zero =>
    constructor
    · intro h
      cases h
      exact ⟨rfl, [], rfl, standsAt_nil (hoff rfl), rfl⟩
    · rintro ⟨hlen, e, hseries, -, rfl⟩
      obtain rfl := List.eq_nil_of_length_eq_zero hlen
      cases hseries
      rfl
  | succ left ih =>
    have hisEmpty : ∀ {rest : List WriteVarData}, rest.length = left → rest.isEmpty = (left == 0) := by
      rintro rest rfl
      cases rest <;> rfl
    have hnext : ∀ n : Nat, (if n % 2 ≠ 0 ∧ left ≠ 0 then off + 4 + n + 1 else off + 4 + n) =
        off + 4 + n + if (left == 0) = true then 0 else n % 2 := by
      intro n
      by_cases h : left = 0
      · simp [h]
      · simp only [ne_eq, h, not_false_eq_true, and_true, beq_iff_eq, ↓reduceIte]
        split <;> omega
    constructor
    · intro h
      obtain ⟨code, transport, raw, n, payload, rest, hcode, htransport, hraw, hn, hpayload, hrest, rfl⟩ :=
        writeDataItems_succ h
      obtain ⟨hpay, hlen⟩ := slice_eq_ok_iff.mp hpayload
      obtain rfl : n = payload.length := by omega
      have hpayEnd := hpay.le
      rw [hnext] at hrest
      obtain ⟨hcount, e₂, hseries, hat, rfl⟩ := (ih (by intro h0; simp [h0]; omega)).mp hrest
      obtain ⟨fill, hfill, hfillAt⟩ : ∃ fill : Bytes,
          fill.length = (if (left == 0) = true then 0 else payload.length % 2) ∧
          StandsAt data (off + 4 + payload.length) fill := exists_fill (by have := hat.le; omega)
      refine ⟨by simp [hcount], dataHeader code transport raw ++ (payload ++ fill) ++ e₂, ?_, ?_, ?_⟩
      · exact ⟨_, e₂,
          ⟨writeDataBytes_eq_ok.mp (itemDataBytes_eq_ok.mp hn), fill, by rw [hisEmpty hcount]; exact hfill, rfl⟩,
          hseries, rfl⟩
      · rw [standsAt_append, standsAt_dataItem]
        have hhead := And.intro (index_eq_ok_iff.mp hcode)
          (And.intro (index_eq_ok_iff.mp htransport) (uint16At_eq_ok_iff.mp hraw))
        refine ⟨⟨hhead, hpay, hfillAt⟩, ?_⟩
        rw [List.length_append, List.length_append, length_dataHeader, hfill]
        convert hat using 1
        omega
      · simp only [List.length_append, length_dataHeader, hfill]
        omega
    · rintro ⟨hlen, e, hseries, hat, rfl⟩
      obtain ⟨⟨code, transport, raw, payload⟩, rest, rfl⟩ := List.exists_cons_of_length_eq_add_one hlen
      obtain ⟨e₁, e₂, ⟨hsized, fill, hfill, rfl⟩, hrest, rfl⟩ := hseries
      have hcount : rest.length = left := Nat.succ.inj hlen
      have hle := hat.le
      rw [standsAt_append, standsAt_dataItem] at hat
      obtain ⟨⟨⟨hcode, htransport, hraw⟩, hpayload, hfillAt⟩, hat⟩ := hat
      dsimp only at *
      rw [hisEmpty hcount] at hfill
      have hcode' : indexAt data off = .ok code := index_eq_ok_iff.mpr hcode
      have htransport' : indexAt data (off + 1) = .ok transport := index_eq_ok_iff.mpr htransport
      have hraw' : wordAt data (off + 2) = .ok raw := uint16At_eq_ok_iff.mpr hraw
      have hn : itemDataBytes i transport raw = .ok payload.length :=
        itemDataBytes_eq_ok.mpr (writeDataBytes_eq_ok.mpr hsized)
      have hpayload' : sliceOf data (off + 4) (off + 4 + payload.length) = .ok payload :=
        slice_eq_ok_iff.mpr ⟨hpayload, rfl⟩
      simp only [List.length_append, length_dataHeader] at hle hat
      have hrest' : writeDataItems data left (i + 1) (off + 4 + payload.length + fill.length) =
          .ok (rest, off + 4 + payload.length + fill.length + e₂.length) := by
        refine (ih (fun _ => by omega)).mpr ⟨hcount, e₂, hrest, ?_, rfl⟩
        convert hat using 1
        omega
      unfold writeDataItems
      rw [if_neg (by omega), hcode', htransport', hraw']
      simp only [Outcome.ok_bind, hn]
      rw [if_neg (by omega), hpayload', Outcome.ok_bind, hnext, ← hfill, hrest']
      simp only [Outcome.ok_bind, Outcome.pure_eq, List.length_append, length_dataHeader]
      congr 2
      omega

/-- A Write Var job is accepted if and only if its sections are serialisations of as many items, with at most one byte
    after the data items. -/
theorem parseWriteVarRequest_eq_ok {param data : Bytes} {specs : List VarSpec} {items : List WriteVarData} :
    parseWriteVarRequest param data = .ok (specs, items) ↔
      ∃ jobs : List JobItem, 0 < jobs.length ∧ jobs.length ≤ 255 ∧ param = jobParam funcWriteVar jobs ∧
        specs = jobs.map JobItem.spec ∧ items.length = jobs.length ∧
        ∃ e tail : Bytes, Series WrittenItem items e ∧ tail.length ≤ 1 ∧ data = e ++ tail := by
  unfold parseWriteVarRequest
  constructor
  · intro h
    obtain ⟨specs', hspecs, h⟩ := Outcome.bind_eq_ok.mp h
    obtain ⟨⟨items', last⟩, hitems, h⟩ := Outcome.bind_eq_ok.mp h
    dsimp only at h
    split at h
    · cases h
    rename_i hextra
    cases h
    obtain ⟨jobs, hpos, hle, rfl, rfl⟩ := parseVarSpecs_eq_ok.mp hspecs
    obtain ⟨hlen, e, hseries, hat, rfl⟩ := (writeDataItems_eq_ok (fun _ => Nat.zero_le _)).mp hitems
    obtain ⟨tail, rfl⟩ := standsAt_zero.mp hat
    refine ⟨jobs, hpos, hle, rfl, rfl, by simpa using hlen, e, tail, hseries, ?_, rfl⟩
    simp at hextra
    omega
  · rintro ⟨jobs, hpos, hle, rfl, rfl, hlen, e, tail, hseries, htail, rfl⟩
    have hspecs : parseVarSpecs (jobParam funcWriteVar jobs) funcWriteVar = .ok (jobs.map JobItem.spec) :=
      parseVarSpecs_eq_ok.mpr ⟨jobs, hpos, hle, rfl, rfl⟩
    have hitems : writeDataItems (e ++ tail) jobs.length 0 0 = .ok (items, 0 + e.length) :=
      (writeDataItems_eq_ok (fun _ => Nat.zero_le _)).mpr ⟨hlen, e, hseries, standsAt_zero.mpr ⟨tail, rfl⟩, rfl⟩
    rw [hspecs, Outcome.ok_bind, List.length_map, hitems, Outcome.ok_bind]
    dsimp only
    rw [if_neg (by simp; omega)]
    rfl

/-- A job of one item, with or without a byte after its data. -/
theorem parseWriteVarRequest_single (job : JobItem) {item : WriteVarData} (h : item.Sized) {tail : Bytes}
    (htail : tail.length ≤ 1) :
    parseWriteVarRequest (jobParam funcWriteVar [job])
        (dataHeader item.returnCode item.transportSize item.rawLength ++ item.data ++ tail) =
      .ok ([job.spec], [item]) := by
  refine parseWriteVarRequest_eq_ok.mpr ⟨[job], by simp, by simp, rfl, rfl, rfl, _, tail, ?_, htail, rfl⟩
  exact ⟨_, [], ⟨h, [], rfl, by rw [List.append_nil]⟩, rfl, by rw [List.append_nil]⟩

/-! ### Read Var -/

section Fill
variable {data : Bytes} {off next n next' : Nat} {last : Bool}

theorem skipFill_eq_ok (h : skipFill data off next n last = .ok next') (hle : next ≤ data.length) :
    next' ≤ data.length ∧ (last = false → next' = next + n % 2) := by
  unfold skipFill at h
  split_ifs at h with hodd hend hmore
  · cases h
    refine ⟨hmore, fun _ => ?_⟩
    omega
  · cases h
    refine ⟨hle, fun hlast => ?_⟩
    simp [hlast] at hend
    omega
  · cases h
    exact ⟨hle, fun _ => by omega⟩

theorem skipFill_ok (off : Nat) (h : next + (if last then 0 else n % 2) ≤ data.length) :
    ∃ next', skipFill data off next n last = .ok next' := by
  unfold skipFill
  split
  · rename_i hodd
    rw [if_neg]
    · split
      · exact ⟨_, rfl⟩
      · exact ⟨_, rfl⟩
    · rintro ⟨hge, hlast⟩
      have hlast' : last = false := by simpa using hlast
      simp only [hlast', Bool.false_eq_true, ↓reduceIte] at h
      omega
  · exact ⟨_, rfl⟩

end Fill

section Decode
variable {data : Bytes} {off next : Nat} {last : Bool}

/-- The bytes of an item that the decoder accepts, up to the fill byte of a last item. -/
theorem decodeReadResponseItem_sound {result : ReadVarItem}
    (h : decodeReadResponseItem data off last = .ok (result, next)) :
    next ≤ data.length ∧ ∃ item : AnswerItem, item.result = result ∧ ∃ e, item.Stands last e ∧ StandsAt data off e ∧
      (last = false → next = off + e.length) := by
  unfold decodeReadResponseItem at h
  split at h
  · cases h
  obtain ⟨code, hcode, h⟩ := Outcome.bind_eq_ok.mp h
  obtain ⟨transport, htransport, h⟩ := Outcome.bind_eq_ok.mp h
  obtain ⟨raw, hraw, h⟩ := Outcome.bind_eq_ok.mp h
  have hhead := And.intro (index_eq_ok_iff.mp hcode)
    (And.intro (index_eq_ok_iff.mp htransport) (uint16At_eq_ok_iff.mp hraw))
  -- An item with a payload ends where the fill byte does.
  have hfilled : ∀ {payload : Bytes} {next : Nat}, StandsAt data (off + 4) payload →
      skipFill data off (off + 4 + payload.length) payload.length last = .ok next →
      next ≤ data.length ∧ ∃ e, DataItem last code transport raw payload e ∧ StandsAt data off e ∧
        (last = false → next = off + e.length) := by
    intro payload next hpayload hskip
    obtain ⟨hle, hnext⟩ := skipFill_eq_ok hskip hpayload.le
    have hroom : off + 4 + payload.length + (if last then 0 else payload.length % 2) ≤ data.length := by
      cases last with
      | true => exact hpayload.le
      | false => exact hnext rfl ▸ hle
    obtain ⟨fill, hfill, hfillAt⟩ := exists_fill hroom
    refine ⟨hle, _, ⟨fill, hfill, rfl⟩, standsAt_dataItem.mpr ⟨hhead, hpayload, hfillAt⟩, fun hlast => ?_⟩
    rw [hnext hlast, List.length_append, List.length_append, length_dataHeader, hfill, if_neg (by simp [hlast])]
    omega
  dsimp only at h
  split at h
  · rename_i hrefused
    split at h
    · rename_i hnone
      cases h
      refine ⟨by omega, ⟨code, transport, raw, [], ?_⟩, ?_, dataHeader code transport raw ++ ([] ++ []), ⟨[], ?_, rfl⟩,
        ?_, ?_⟩
      · rw [if_pos ⟨hrefused, hnone⟩]
      · simp [AnswerItem.result]
      · simp
      · exact standsAt_dataItem.mpr ⟨hhead, standsAt_nil (by omega), standsAt_nil (by simp; omega)⟩
      · intro
        simp
    · rename_i hsome
      obtain ⟨n, hn, h⟩ := Outcome.bind_eq_ok.mp h
      split at h
      · cases h
      obtain ⟨next', hskip, h⟩ := Outcome.bind_eq_ok.mp h
      cases h
      obtain ⟨payload, rfl, hpayload⟩ : ∃ payload : Bytes, payload.length = n ∧ StandsAt data (off + 4) payload :=
        exists_fill (by omega)
      obtain ⟨hle, e, hitem, hat, hnext⟩ := hfilled hpayload hskip
      refine ⟨hle, ⟨code, transport, raw, payload, ?_⟩, ?_, e, hitem, hat, hnext⟩
      · rw [if_neg (fun hno => hsome hno.2)]
        exact hn
      · simp [AnswerItem.result, hrefused]
  · rename_i hok
    rw [not_not] at hok
    obtain ⟨n, hn, h⟩ := Outcome.bind_eq_ok.mp h
    split at h
    · cases h
    obtain ⟨payload, hslice, h⟩ := Outcome.bind_eq_ok.mp h
    obtain ⟨next', hskip, h⟩ := Outcome.bind_eq_ok.mp h
    cases h
    obtain ⟨hpayload, hlen⟩ := slice_eq_ok_iff.mp hslice
    obtain rfl : n = payload.length := by omega
    obtain ⟨hle, e, hitem, hat, hnext⟩ := hfilled hpayload hskip
    refine ⟨hle, ⟨code, transport, raw, payload, ?_⟩, ?_, e, hitem, hat, hnext⟩
    · rw [if_neg (fun hno => hno.1 hok)]
      exact hn
    · simp [AnswerItem.result, hok]

/-- The decoder accepts every item that stands at its offset. -/
theorem decodeReadResponseItem_complete {item : AnswerItem} {e : Bytes} (hitem : item.Stands last e)
    (hat : StandsAt data off e) : ∃ next, decodeReadResponseItem data off last = .ok (item.result, next) := by
  obtain ⟨code, transport, raw, payload, hsized⟩ := item
  obtain ⟨fill, hfill, rfl⟩ := hitem
  dsimp only at hfill hat
  have hle := hat.le
  simp only [List.length_append, length_dataHeader] at hle
  obtain ⟨⟨hcode, htransport, hraw⟩, hpayload, -⟩ := standsAt_dataItem.mp hat
  have hcode' : indexAt data off = .ok code := index_eq_ok_iff.mpr hcode
  have htransport' : indexAt data (off + 1) = .ok transport := index_eq_ok_iff.mpr htransport
  have hraw' : wordAt data (off + 2) = .ok raw := uint16At_eq_ok_iff.mpr hraw
  have hpayload' : sliceOf data (off + 4) (off + 4 + payload.length) = .ok payload := slice_eq_ok_iff.mpr ⟨hpayload, rfl⟩
  obtain ⟨next, hskip⟩ : ∃ next, skipFill data off (off + 4 + payload.length) payload.length last = .ok next :=
    skipFill_ok off (by rw [← hfill]; omega)
  unfold decodeReadResponseItem
  rw [if_neg (by omega), hcode', htransport', hraw']
  simp only [Outcome.ok_bind]
  by_cases hok : code = retCodeSuccess
  · rw [if_neg (not_not.mpr hok)]
    rw [if_neg (fun h => h.1 hok)] at hsized
    rw [hsized, Outcome.ok_bind, if_neg (by omega), hpayload', Outcome.ok_bind, hskip]
    exact ⟨next, by simp [AnswerItem.result, hok]⟩
  · rw [if_pos hok]
    by_cases hnone : transport = 0x00 ∨ raw = 0
    · rw [if_pos hnone]
      exact ⟨off + 4, by simp [AnswerItem.result, hok]⟩
    · rw [if_neg hnone]
      rw [if_neg (fun h => hnone h.2)] at hsized
      rw [hsized, Outcome.ok_bind, if_neg (by omega), hskip]
      exact ⟨next, by simp [AnswerItem.result, hok]⟩

end Decode

theorem unambiguous_stands : Unambiguous AnswerItem.Stands := by
  intro last item item' e e' b off h h' hat hat'
  obtain ⟨code, transport, raw, payload, hsized⟩ := item
  obtain ⟨code', transport', raw', payload', hsized'⟩ := item'
  obtain ⟨rfl, rfl, rfl, rfl, rfl⟩ := DataItem.unique h h' (by
    rintro rfl rfl rfl
    dsimp only at hsized hsized' ⊢
    split at hsized
    · rename_i hnone
      rw [if_pos hnone] at hsized'
      rw [hsized, hsized']
    · rename_i hsome
      rw [if_neg hsome, hsized] at hsized'
      exact Outcome.ok.inj hsized') hat hat'
  exact ⟨rfl, rfl⟩

/-- The decoder of Read Var answers returns the results of the items that stand in the section from `off` on. -/
theorem readResponseItems_eq_ok {data : Bytes} {left off : Nat} {results : List ReadVarItem} (hoff : off ≤ data.length) :
    readResponseItems data left off = .ok results ↔
      ∃ items : List AnswerItem, items.length = left ∧ items.map AnswerItem.result = results ∧
        ∃ e, Series AnswerItem.Stands items e ∧ StandsAt data off e := by
  induction left generalizing off results with
  | zero =>
    constructor
    · intro h
      cases h
      exact ⟨[], rfl, rfl, [], rfl, standsAt_nil hoff⟩
    · rintro ⟨items, hlen, rfl, -⟩
      obtain rfl := List.eq_nil_of_length_eq_zero hlen
      rfl
  | succ left ih =>
    have hisEmpty : ∀ {rest : List AnswerItem}, rest.length = left → rest.isEmpty = (left == 0) := by
      rintro rest rfl
      cases rest <;> rfl
    unfold readResponseItems
    constructor
    · intro h
      obtain ⟨⟨result, next⟩, hitem, h⟩ := Outcome.bind_eq_ok.mp h
      obtain ⟨rest, hrest, h⟩ := Outcome.bind_eq_ok.mp h
      cases h
      obtain ⟨hle, item, rfl, e₁, hstands, hat₁, hnext⟩ := decodeReadResponseItem_sound hitem
      obtain ⟨items, hlen, rfl, e₂, hseries, hat₂⟩ := (ih hle).mp hrest
      refine ⟨item :: items, by simp [hlen], rfl, e₁ ++ e₂,
        ⟨e₁, e₂, by rw [hisEmpty hlen]; exact hstands, hseries, rfl⟩, ?_⟩
      rw [standsAt_append]
      refine ⟨hat₁, ?_⟩
      cases left with
      | zero =>
        obtain rfl := List.eq_nil_of_length_eq_zero hlen
        cases hseries
        exact standsAt_nil hat₁.le
      | succ left => exact hnext rfl ▸ hat₂
    · rintro ⟨items, hlen, rfl, e, hseries, hat⟩
      obtain ⟨item, items, rfl⟩ := List.exists_cons_of_length_eq_add_one hlen
      have hlen' : items.length = left := Nat.succ.inj hlen
      obtain ⟨e₁, e₂, hstands, hseries, rfl⟩ := hseries
      rw [hisEmpty hlen'] at hstands
      obtain ⟨hat₁, hat₂⟩ := standsAt_append.mp hat
      obtain ⟨next, hitem⟩ := decodeReadResponseItem_complete hstands hat₁
      obtain ⟨hle, item', -, e₁', hstands', hat₁', hnext⟩ := decodeReadResponseItem_sound hitem
      have hrest : readResponseItems data left next = .ok (items.map AnswerItem.result) := by
        refine (ih hle).mpr ⟨items, hlen', rfl, e₂, hseries, ?_⟩
        cases left with
        | zero =>
          obtain rfl := List.eq_nil_of_length_eq_zero hlen'
          cases hseries
          exact standsAt_nil hle
        | succ left =>
          obtain ⟨-, rfl⟩ := unambiguous_stands hstands' hstands hat₁' hat₁
          exact hnext rfl ▸ hat₂
      rw [hitem, Outcome.ok_bind]
      dsimp only
      rw [hrest]
      rfl

/-- A Read Var answer is accepted if and only if its data section starts with as many items as it declares. -/
theorem parseReadVarResponse_eq_ok {param data : Bytes} {results : List ReadVarItem} :
    parseReadVarResponse param data = .ok results ↔
      (2 ≤ param.length ∧ param.head? = some funcReadVar) ∧
        ∃ items : List AnswerItem, items.length = (param.getD 1 0).toNat ∧ items.map AnswerItem.result = results ∧
          ∃ e tail, Series AnswerItem.Stands items e ∧ data = e ++ tail := by
  unfold parseReadVarResponse
  match param with
  | [] | [_] => simp
  | fn :: n :: rest =>
    rw [if_neg (by simp)]
    simp only [index_zero, index_succ, Outcome.ok_bind, List.length_cons, Nat.le_add_left, true_and, List.head?_cons,
      Option.some.injEq, List.getD_cons_succ, List.getD_cons_zero]
    by_cases hfn : fn = funcReadVar
    · rw [if_neg (not_not.mpr hfn), readResponseItems_eq_ok (Nat.zero_le _)]
      simp only [hfn, true_and, standsAt_zero, exists_and_left]
    · rw [if_pos hfn]
      simp [hfn]

end S7Comm
