import S7Comm.Theorems.AnswerBounds
import S7Comm.Theorems.Jobs
import S7Comm.Wire.Blocks
import S7Comm.Wire.Setup

/-! The parsers of the package `wire` stay in bounds on every input, and the payloads of the data items they return
    lie in the data section one after the other, each right after its header. -/

namespace S7Comm
open Go

/-! ### Sections of fixed layout -/

theorem parseSetupCommResponse_ne_panic (data : Bytes) : parseSetupCommResponse data ≠ .panic := by
  unfold parseSetupCommResponse
  split
  · simp
  rw [indexAt_of_lt (by omega), Outcome.ok_bind]
  split
  · simp
  · rw [wordAt_of_le (by omega), wordAt_of_le (by omega), wordAt_of_le (by omega)]
    simp

theorem parseUserdataParam_ne_panic (param : Bytes) : parseUserdataParam param ≠ .panic := by
  unfold parseUserdataParam
  dsimp only
  split
  · simp
  rw [indexAt_of_lt (by omega), indexAt_of_lt (by omega), indexAt_of_lt (by omega), indexAt_of_lt (by omega)]
  simp only [Outcome.ok_bind]
  split
  · simp
  · rw [indexAt_of_lt (by omega), indexAt_of_lt (by omega), indexAt_of_lt (by omega), indexAt_of_lt (by omega),
      wordAt_of_le (by omega)]
    simp

theorem parseUserdataData_ne_panic (data : Bytes) : parseUserdataData data ≠ .panic := by
  unfold parseUserdataData
  split
  · simp
  rw [indexAt_of_lt (by omega), Outcome.ok_bind]
  split
  · simp
  rw [wordAt_of_le (by omega), Outcome.ok_bind]
  dsimp only
  split
  · simp
  · rw [sliceOf_of_le (by omega) (by omega)]
    simp

theorem parseSZLList_ne_panic (data : Bytes) : parseSZLList data ≠ .panic := by
  unfold parseSZLList
  split
  · simp
  rw [wordAt_of_le (by omega), Outcome.ok_bind]
  dsimp only
  split
  · simp
  split
  · simp
  · rw [wordAt_of_le (by omega), wordAt_of_le (by omega), sliceOf_of_le (by omega) (by omega)]
    simp

theorem parseSZLResponse_ne_panic (data : Bytes) : parseSZLResponse data ≠ .panic := by
  unfold parseSZLResponse
  split
  · rename_i h
    rw [indexAt_of_lt h, Outcome.ok_bind]
    split
    · simp
    · exact parseSZLList_ne_panic data
  · exact parseSZLList_ne_panic data

theorem announcedLength_ne_panic {param : Bytes} (h : 8 < param.length) : announcedLength param ≠ .panic := by
  unfold announcedLength
  rw [indexAt_of_lt h, Outcome.ok_bind]
  dsimp only
  split
  · simp
  · rw [sliceOf_of_le (by omega) (by omega)]
    simp

theorem parseStartUploadResponse_ne_panic (param : Bytes) : parseStartUploadResponse param ≠ .panic := by
  unfold parseStartUploadResponse
  dsimp only
  split
  · simp
  rename_i hlen
  rw [indexAt_of_lt (by omega), Outcome.ok_bind]
  split
  · simp
  obtain ⟨id, hid⟩ : ∃ v, dwordAt param 4 = .ok v := dwordAt_of_le (by omega)
  rw [hid, Outcome.ok_bind]
  split
  · rename_i h
    exact Outcome.bind_ne_panic (announcedLength_ne_panic h) (by simp)
  · simp

theorem parseUploadResponse_ne_panic (param data : Bytes) : parseUploadResponse param data ≠ .panic := by
  unfold parseUploadResponse
  dsimp only
  split
  · simp
  rw [indexAt_of_lt (by omega), Outcome.ok_bind]
  split
  · simp
  split
  · simp
  rw [wordAt_of_le (by omega), Outcome.ok_bind]
  split
  · simp
  · rw [indexAt_of_lt (by omega), sliceOf_of_le (by omega) (by omega)]
    simp

theorem parseBlockInfoResponse_ne_panic (b : Bytes) : parseBlockInfoResponse b ≠ .panic := by
  unfold parseBlockInfoResponse
  split
  · simp
  rename_i hlen
  have hlen' : 70 ≤ b.length := Nat.not_lt.mp hlen
  obtain ⟨load, hload⟩ : ∃ v, dwordAt b 14 = .ok v := dwordAt_of_le (by omega)
  obtain ⟨security, hsecurity⟩ : ∃ v, dwordAt b 18 = .ok v := dwordAt_of_le (by omega)
  rw [indexAt_of_lt (by omega), indexAt_of_lt (by omega), indexAt_of_lt (by omega), indexAt_of_lt (by omega),
    wordAt_of_le (by omega), hload, hsecurity, wordAt_of_le (by omega), wordAt_of_le (by omega),
    wordAt_of_le (by omega), wordAt_of_le (by omega), sliceOf_of_le (by omega) (by omega),
    sliceOf_of_le (by omega) (by omega), sliceOf_of_le (by omega) (by omega), wordAt_of_le (by omega)]
  simp

/-! ### Lists of entries -/

theorem blockCounts_ne_panic {payload : Bytes} (hlen : payload.length % 4 = 0) (off : Nat) (hoff : off % 4 = 0) :
    blockCounts payload off ≠ .panic := by
  fun_induction blockCounts payload off with
  | case1 off h ih =>
    rw [indexAt_of_lt (by omega), sliceOf_of_le (by omega) (Nat.le_refl _)]
    simp only [Outcome.ok_bind]
    rw [wordAt_of_le (by rw [List.length_take, List.length_drop]; omega), Outcome.ok_bind]
    exact Outcome.bind_ne_panic (ih (by omega)) (by simp)
  | case2 off h => simp

theorem parseBlockCountResponse_ne_panic (payload : Bytes) : parseBlockCountResponse payload ≠ .panic := by
  unfold parseBlockCountResponse
  split
  · simp
  · rename_i h
    exact blockCounts_ne_panic (not_not.mp h) 0 rfl

theorem blockListEntries_ne_panic {payload : Bytes} (hlen : payload.length % 4 = 0) (off : Nat) (hoff : off % 4 = 0) :
    blockListEntries payload off ≠ .panic := by
  fun_induction blockListEntries payload off with
  | case1 off h ih =>
    rw [wordAt_of_le (by omega), indexAt_of_lt (by omega), indexAt_of_lt (by omega)]
    simp only [Outcome.ok_bind]
    exact Outcome.bind_ne_panic (ih (by omega)) (by simp)
  | case2 off h => simp

theorem parseBlockListResponse_ne_panic (payload : Bytes) : parseBlockListResponse payload ≠ .panic := by
  unfold parseBlockListResponse
  split
  · simp
  · rename_i h
    exact blockListEntries_ne_panic (not_not.mp h) 0 rfl

/-! ### Write Var answers -/

theorem parseWriteVarResponseCodes_ne_panic (param data : Bytes) : parseWriteVarResponseCodes param data ≠ .panic := by
  unfold parseWriteVarResponseCodes
  split
  · simp
  rw [indexAt_of_lt (by omega), Outcome.ok_bind]
  split
  · simp
  rw [indexAt_of_lt (by omega), Outcome.ok_bind]
  dsimp only
  split
  · simp
  · rw [sliceOf_of_le (by omega) (by omega)]
    simp

/-! ### Data items -/

/-- The item lies at `off` of a data section: four header bytes, and its payload right after them. -/
structure ItemAt (data : Bytes) (off : Nat) (item : WriteVarData) : Prop where
  header : (data.drop off).take 4 = [item.returnCode, item.transportSize] ++ putUint16 item.rawLength
  payload : (data.drop (off + 4)).take item.data.length = item.data
  fits : off + 4 + item.data.length ≤ data.length

/-- The items lie in a data section from `start` on, at these offsets, in this order and apart from each other. -/
structure DataLayout (data : Bytes) (start : Nat) (offs : List Nat) (items : List WriteVarData) : Prop where
  placed : List.Forall₂ (ItemAt data) offs items
  after : ∀ off ∈ offs, start ≤ off
  apart : (offs.zip items).Pairwise fun a b => a.1 + 4 + a.2.data.length ≤ b.1

theorem DataLayout.nil (data : Bytes) (start : Nat) : DataLayout data start [] [] :=
  ⟨.nil, by simp, by simp⟩

theorem DataLayout.cons {data : Bytes} {start next : Nat} {item : WriteVarData} {offs : List Nat}
    {items : List WriteVarData} (hitem : ItemAt data start item) (hnext : start + 4 + item.data.length ≤ next)
    (h : DataLayout data next offs items) : DataLayout data start (start :: offs) (item :: items) := by
  refine ⟨.cons hitem h.placed, ?_, ?_⟩
  · rw [List.forall_mem_cons]
    refine ⟨Nat.le_refl _, fun off hoff => ?_⟩
    have := h.after off hoff
    omega
  · rw [List.zip_cons_cons, List.pairwise_cons]
    refine ⟨fun b hb => ?_, h.apart⟩
    exact Nat.le_trans hnext (h.after b.1 (List.of_mem_zip hb).1)

theorem header_bytes {data : Bytes} {off : Nat} (h : off + 4 ≤ data.length) :
    (data.drop off).take 4 = [data.getD off 0, data.getD (off + 1) 0] ++
      putUint16 (be16 (data.getD (off + 2) 0) (data.getD (off + 2 + 1) 0)) := by
  have hget : ∀ i, i < 4 → ((data.drop off).take 4)[i]? = some (data.getD (off + i) 0) := by
    intro i hi
    rw [List.getElem?_take_of_lt hi, List.getElem?_drop, List.getD_eq_getElem?_getD,
      List.getElem?_eq_getElem (by omega)]
    rfl
  apply List.ext_getElem?
  intro i
  rw [putUint16_be16]
  match i with
  | 0 => exact hget 0 (by omega)
  | 1 => exact hget 1 (by omega)
  | 2 => exact hget 2 (by omega)
  | 3 => exact hget 3 (by omega)
  | i + 4 => simp

/-- The reads of a parser that accepts an item at `off`. -/
theorem itemAt_of_reads {data : Bytes} {off n : Nat} {code transport : UInt8} {raw : UInt16} {payload : Bytes}
    (hcode : indexAt data off = .ok code) (htransport : indexAt data (off + 1) = .ok transport)
    (hraw : wordAt data (off + 2) = .ok raw) (hpayload : sliceOf data (off + 4) (off + 4 + n) = .ok payload) :
    ItemAt data off ⟨code, transport, raw, payload⟩ ∧ payload.length = n := by
  obtain ⟨-, hle, hpayload⟩ := slice_eq_ok.mp hpayload
  rw [Nat.add_sub_cancel_left] at hpayload
  have hlen : payload.length = n := by
    rw [← hpayload, List.length_take, List.length_drop]
    omega
  have hcode' : data.getD off 0 = code := by rw [List.getD_eq_getElem?_getD, index_eq_ok.mp hcode]; rfl
  have htransport' : data.getD (off + 1) 0 = transport := by
    rw [List.getD_eq_getElem?_getD, index_eq_ok.mp htransport]
    rfl
  have hraw' : be16 (data.getD (off + 2) 0) (data.getD (off + 2 + 1) 0) = raw := by
    rw [wordAt_of_le (by omega)] at hraw
    exact Outcome.ok.inj hraw
  refine ⟨⟨?_, ?_, ?_⟩, hlen⟩
  · rw [header_bytes (by omega), hcode', htransport', hraw']
  · rw [hlen]
    exact hpayload
  · rw [hlen]
    exact hle

theorem writeDataItems_layout {data : Bytes} {left i off last : Nat} {items : List WriteVarData}
    (h : writeDataItems data left i off = .ok (items, last)) : ∃ offs, DataLayout data off offs items := by
  induction left generalizing i off last items with
  | zero =>
    cases h
    exact ⟨[], .nil data off⟩
  | succ left ih =>
    obtain ⟨code, transport, raw, n, payload, rest, hcode, htransport, hraw, -, hpayload, hrest, rfl⟩ :=
      writeDataItems_succ h
    obtain ⟨hitem, hlen⟩ := itemAt_of_reads hcode htransport hraw hpayload
    obtain ⟨offs, hlayout⟩ := ih hrest
    refine ⟨off :: offs, hlayout.cons hitem ?_⟩
    dsimp only
    rw [hlen]
    split <;> omega

/-- An item of a Read Var answer as the data item it is read from. -/
def ReadVarItem.dataItem (item : ReadVarItem) : WriteVarData :=
  ⟨item.returnCode, item.rawTransportSize, item.rawLength, item.data⟩

theorem skipFill_le {data : Bytes} {off next n next' : Nat} {last : Bool}
    (h : skipFill data off next n last = .ok next') : next ≤ next' := by
  unfold skipFill at h
  split_ifs at h <;> cases h <;> omega

theorem decodeReadResponseItem_at {data : Bytes} {off next : Nat} {last : Bool} {item : ReadVarItem}
    (h : decodeReadResponseItem data off last = .ok (item, next)) :
    ItemAt data off item.dataItem ∧ off + 4 + item.data.length ≤ next := by
  unfold decodeReadResponseItem at h
  split at h
  · cases h
  rename_i hhead
  obtain ⟨code, hcode, h⟩ := Outcome.bind_eq_ok.mp h
  obtain ⟨transport, htransport, h⟩ := Outcome.bind_eq_ok.mp h
  obtain ⟨raw, hraw, h⟩ := Outcome.bind_eq_ok.mp h
  dsimp only at h
  -- A refused item is returned without a payload, however many bytes it takes.
  have hrefused : ItemAt data off ⟨code, transport, raw, []⟩ := by
    have hempty : sliceOf data (off + 4) (off + 4 + 0) = .ok [] := by
      rw [sliceOf_of_le (by omega) (by omega)]
      simp
    exact (itemAt_of_reads hcode htransport hraw hempty).1
  split at h
  · split at h
    · cases h
      exact ⟨hrefused, Nat.le_refl _⟩
    · obtain ⟨n, -, h⟩ := Outcome.bind_eq_ok.mp h
      split at h
      · cases h
      obtain ⟨next', hfill, h⟩ := Outcome.bind_eq_ok.mp h
      cases h
      exact ⟨hrefused, Nat.le_trans (Nat.le_add_right _ n) (skipFill_le hfill)⟩
  · obtain ⟨n, -, h⟩ := Outcome.bind_eq_ok.mp h
    split at h
    · cases h
    obtain ⟨payload, hpayload, h⟩ := Outcome.bind_eq_ok.mp h
    obtain ⟨next', hfill, h⟩ := Outcome.bind_eq_ok.mp h
    cases h
    obtain ⟨hitem, hlen⟩ := itemAt_of_reads hcode htransport hraw hpayload
    refine ⟨hitem, ?_⟩
    dsimp only
    rw [hlen]
    exact skipFill_le hfill

theorem readResponseItems_layout {data : Bytes} {left off : Nat} {items : List ReadVarItem}
    (h : readResponseItems data left off = .ok items) :
    ∃ offs, DataLayout data off offs (items.map ReadVarItem.dataItem) := by
  induction left generalizing off items with
  | zero =>
    cases h
    exact ⟨[], .nil data off⟩
  | succ left ih =>
    unfold readResponseItems at h
    obtain ⟨⟨item, next⟩, hitem, h⟩ := Outcome.bind_eq_ok.mp h
    obtain ⟨rest, hrest, h⟩ := Outcome.bind_eq_ok.mp h
    cases h
    obtain ⟨hat, hnext⟩ := decodeReadResponseItem_at hitem
    obtain ⟨offs, hlayout⟩ := ih hrest
    exact ⟨off :: offs, hlayout.cons hat hnext⟩

/-- The items of a Read Var answer are those of its data section. -/
theorem parseReadVarResponse_items {param data : Bytes} {items : List ReadVarItem}
    (h : parseReadVarResponse param data = .ok items) : ∃ left, readResponseItems data left 0 = .ok items := by
  unfold parseReadVarResponse at h
  split at h
  · cases h
  obtain ⟨fn, -, h⟩ := Outcome.bind_eq_ok.mp h
  split at h
  · cases h
  obtain ⟨count, -, h⟩ := Outcome.bind_eq_ok.mp h
  exact ⟨count.toNat, h⟩

/-- The first item of a Read Var answer starts the data section. -/
theorem parseReadVarResponse_head {param data : Bytes} {item : ReadVarItem} {items : List ReadVarItem}
    (h : parseReadVarResponse param data = .ok (item :: items)) : ItemAt data 0 item.dataItem := by
  obtain ⟨left, h⟩ := parseReadVarResponse_items h
  cases left with
  | zero => cases h
  | succ left =>
    unfold readResponseItems at h
    obtain ⟨⟨item', next⟩, hitem, h⟩ := Outcome.bind_eq_ok.mp h
    obtain ⟨rest, -, h⟩ := Outcome.bind_eq_ok.mp h
    cases h
    exact (decodeReadResponseItem_at hitem).1

theorem parseReadVarResponse_layout {param data : Bytes} {items : List ReadVarItem}
    (h : parseReadVarResponse param data = .ok items) :
    ∃ offs, DataLayout data 0 offs (items.map ReadVarItem.dataItem) := by
  obtain ⟨left, hitems⟩ := parseReadVarResponse_items h
  exact readResponseItems_layout hitems

theorem parseWriteVarRequest_layout {param data : Bytes} {specs : List VarSpec} {items : List WriteVarData}
    (h : parseWriteVarRequest param data = .ok (specs, items)) : ∃ offs, DataLayout data 0 offs items := by
  unfold parseWriteVarRequest at h
  obtain ⟨specs', -, h⟩ := Outcome.bind_eq_ok.mp h
  obtain ⟨⟨items', last⟩, hitems, h⟩ := Outcome.bind_eq_ok.mp h
  dsimp only at h
  split at h
  · cases h
  · cases h
    exact writeDataItems_layout hitems

theorem parseS7Header_ne_panic (data : Bytes) : parseS7Header data ≠ .panic := by
  rcases parseS7Header_spec data with ⟨e, he⟩ | ⟨header, rest, hok, -⟩ <;> simp_all

theorem parseReadVarDBRead_ne_panic (param : Bytes) : parseReadVarDBRead param ≠ .panic := by
  cases hparse : parseReadVarRequest param with
  | ok specs =>
    obtain ⟨ranges, hranges, -⟩ := parseReadVarDBRead_spec hparse
    simp [hranges]
  | fail e =>
    unfold parseReadVarDBRead
    rw [show parseVarSpecs param funcReadVar = .fail e from hparse]
    simp
  | panic => exact absurd hparse (parseVarSpecs_ne_panic _ _)

theorem parseWriteVarRequest_ne_panic (param data : Bytes) : parseWriteVarRequest param data ≠ .panic := by
  rcases parseWriteVarRequest_spec param data with ⟨e, he⟩ | ⟨specs, items, hok, -⟩ <;> simp_all

/-- On every input no parser takes an index or a slice out of range, and the payloads of the items of a Read Var
    answer and of a Write Var job are sub-slices of the data section, in order, apart from each other and each four
    bytes after its header. -/
theorem wire_parsers_in_bounds :
    (∀ data, parseS7Header data ≠ .panic) ∧
    (∀ param, parseSetupCommRequest param ≠ .panic) ∧ (∀ data, parseSetupCommResponse data ≠ .panic) ∧
    (∀ param fn, parseVarSpecs param fn ≠ .panic) ∧ (∀ item, parseDBRead item ≠ .panic) ∧
    (∀ param, parseReadVarDBRead param ≠ .panic) ∧ (∀ param data, parseWriteVarRequest param data ≠ .panic) ∧
    (∀ param data, parseReadVarResponse param data ≠ .panic) ∧
    (∀ param data, parseWriteVarResponseCodes param data ≠ .panic) ∧
    (∀ param, parseUserdataParam param ≠ .panic) ∧ (∀ data, parseUserdataData data ≠ .panic) ∧
    (∀ data, parseSZLResponse data ≠ .panic) ∧
    (∀ param, parseStartUploadResponse param ≠ .panic) ∧ (∀ param data, parseUploadResponse param data ≠ .panic) ∧
    (∀ payload, parseBlockCountResponse payload ≠ .panic) ∧ (∀ payload, parseBlockListResponse payload ≠ .panic) ∧
    (∀ payload, parseBlockInfoResponse payload ≠ .panic) ∧
    (∀ param data items, parseReadVarResponse param data = .ok items →
      ∃ offs, DataLayout data 0 offs (items.map ReadVarItem.dataItem)) ∧
    (∀ param data specs items, parseWriteVarRequest param data = .ok (specs, items) →
      ∃ offs, DataLayout data 0 offs items) :=
  ⟨parseS7Header_ne_panic, parseSetupCommRequest_ne_panic, parseSetupCommResponse_ne_panic, parseVarSpecs_ne_panic,
    parseDBRead_ne_panic, parseReadVarDBRead_ne_panic, parseWriteVarRequest_ne_panic, parseReadVarResponse_ne_panic,
    parseWriteVarResponseCodes_ne_panic, parseUserdataParam_ne_panic, parseUserdataData_ne_panic,
    parseSZLResponse_ne_panic, parseStartUploadResponse_ne_panic, parseUploadResponse_ne_panic,
    parseBlockCountResponse_ne_panic, parseBlockListResponse_ne_panic, parseBlockInfoResponse_ne_panic,
    fun _ _ _ => parseReadVarResponse_layout, fun _ _ _ _ => parseWriteVarRequest_layout⟩

/-- An answer with two items, the first with a fill byte after its payload. -/
theorem wire_parsers_in_bounds_two_items :
    parseReadVarResponse [funcReadVar, 2] [0xFF, 0x04, 0x00, 0x08, 0xAA, 0x00, 0xFF, 0x04, 0x00, 0x10, 0xBB, 0xCC] =
        .ok [⟨0xFF, 0x04, 8, [0xAA]⟩, ⟨0xFF, 0x04, 16, [0xBB, 0xCC]⟩] ∧
      ∃ offs, DataLayout [0xFF, 0x04, 0x00, 0x08, 0xAA, 0x00, 0xFF, 0x04, 0x00, 0x10, 0xBB, 0xCC] 0 offs
        [⟨0xFF, 0x04, 8, [0xAA]⟩, ⟨0xFF, 0x04, 16, [0xBB, 0xCC]⟩] := by
  obtain ⟨-, -, -, -, -, -, -, -, -, -, -, -, -, -, -, -, -, hlayout, -⟩ := wire_parsers_in_bounds
  have hparse : parseReadVarResponse [funcReadVar, 2]
      [0xFF, 0x04, 0x00, 0x08, 0xAA, 0x00, 0xFF, 0x04, 0x00, 0x10, 0xBB, 0xCC] =
        .ok [⟨0xFF, 0x04, 8, [0xAA]⟩, ⟨0xFF, 0x04, 16, [0xBB, 0xCC]⟩] := rfl
  exact ⟨hparse, hlayout _ _ _ hparse⟩

end S7Comm
