import S7Comm.Client.Client
import S7Comm.Theorems.DataGrammar
import S7Comm.Theorems.ReadVar

/-! The answers of the session as the client takes them apart: the sections of an Ack-Data PDU, the items of a Read
    Var answer and the codes of a Write Var answer. -/

namespace S7Comm
open Go

/-- The sections of an answer without a header error come back as they were sent. -/
theorem responseSections_ackData {ref : UInt16} {param data : Bytes} (h : param.length + data.length ≤ 65535) :
    responseSections (ackData ref 0 0 param data) ref = .ok (param, data) := by
  have hp : (UInt16.ofNat param.length).toNat = param.length := uint16_toNat_ofNat (by omega)
  have hd : (UInt16.ofNat data.length).toNat = data.length := uint16_toNat_ofNat (by omega)
  have hsum : (UInt16.ofNat param.length + UInt16.ofNat data.length).toNat = param.length + data.length := by
    rw [UInt16.toNat_add, hp, hd]
    omega
  unfold responseSections
  rw [parseS7Header_ackData (by omega) (by omega)]
  dsimp only
  rw [if_neg (by simp), if_neg (by simp), hp, hd, if_neg (by simp), sliceOf_of_le (by omega) (by simp), Outcome.ok_bind,
    hsum, sliceOf_of_le (by omega) (by simp), Outcome.ok_bind]
  simp

/-- Sections that the client takes from an answer are the ones that were sent, without a header error. The length of
    the two together may be past 16 bits: the client does not take such an answer. -/
theorem responseSections_ackData_ok {ref : UInt16} {cls code : UInt8} {param data : Bytes} {sections : Bytes × Bytes}
    (hp : param.length ≤ 65535) (hd : data.length ≤ 65535)
    (h : responseSections (ackData ref cls code param data) ref = .ok sections) : sections = (param, data) := by
  have hp' : (UInt16.ofNat param.length).toNat = param.length := uint16_toNat_ofNat (by omega)
  have hd' : (UInt16.ofNat data.length).toNat = data.length := uint16_toNat_ofNat (by omega)
  unfold responseSections at h
  rw [parseS7Header_ackData hp hd] at h
  dsimp only at h
  rw [if_neg (by simp)] at h
  split at h
  · obtain ⟨_, -, h⟩ := Outcome.bind_eq_ok.mp h
    obtain ⟨_, -, h⟩ := Outcome.bind_eq_ok.mp h
    cases h
  rw [hp', hd', if_neg (by simp), sliceOf_of_le (by omega) (by simp), Outcome.ok_bind] at h
  obtain ⟨rest, hrest, h⟩ := Outcome.bind_eq_ok.mp h
  cases h
  obtain ⟨hle, -, hrest⟩ := slice_eq_ok.mp hrest
  rw [UInt16.toNat_add, hp', hd'] at hle hrest
  have hsum : (param.length + data.length) % 2 ^ 16 = param.length + data.length := Nat.mod_eq_of_lt (by omega)
  rw [hsum] at hrest
  simp at hrest
  simp [hrest]

/-! ### Read Var -/

/-- A result as the client sees it. -/
def ReadVarResult.item (r : ReadVarResult) : ReadVarItem := ⟨r.returnCode, r.transportSize, r.rawLength, r.data⟩

/-- The bytes of one result, with its fill byte when another follows. -/
def resultBytes (r : ReadVarResult) (last : Bool) : Bytes :=
  [r.returnCode, r.transportSize] ++ putUint16 r.rawLength ++ r.data ++
    (if !last ∧ r.data.length % 2 ≠ 0 then [0x00] else [])

theorem readVarResultBytes_cons (r : ReadVarResult) (rs : List ReadVarResult) :
    readVarResultBytes (r :: rs) = resultBytes r rs.isEmpty ++ readVarResultBytes rs := by
  have hlast : rs ≠ [] ↔ (!rs.isEmpty) = true := by simp
  simp only [readVarResultBytes, resultBytes, hlast]

theorem readVarResultSize_eq (r : ReadVarResult) (last : Bool) :
    readVarResultSize r last = 4 + r.data.length + if !last ∧ r.data.length % 2 ≠ 0 then 1 else 0 := by
  unfold readVarResultSize
  dsimp only
  split <;> rfl

/-- What a result needs to be read back: the length field of a success stands for its data, and a refused item has
    neither a transport size nor data. -/
structure Readable (r : ReadVarResult) : Prop where
  refused : r.returnCode ≠ retCodeSuccess → r.transportSize = 0 ∧ r.data = []
  read : r.returnCode = retCodeSuccess → normalizeResponseDataLength r.transportSize r.rawLength = .ok r.data.length

theorem resultBytes_stands {r : ReadVarResult} (h : Readable r) (last : Bool) :
    ∃ item : AnswerItem, item.result = r.item ∧ item.Stands last (resultBytes r last) := by
  have hsized : if r.returnCode ≠ retCodeSuccess ∧ (r.transportSize = 0 ∨ r.rawLength = 0) then r.data = []
      else normalizeResponseDataLength r.transportSize r.rawLength = .ok r.data.length := by
    by_cases hok : r.returnCode = retCodeSuccess
    · rw [if_neg fun hno => hno.1 hok]
      exact h.read hok
    · rw [if_pos ⟨hok, .inl (h.refused hok).1⟩]
      exact (h.refused hok).2
  refine ⟨⟨r.returnCode, r.transportSize, r.rawLength, r.data, hsized⟩, ?_,
    if !last ∧ r.data.length % 2 ≠ 0 then [0x00] else [], ?_, ?_⟩
  · by_cases hok : r.returnCode = retCodeSuccess
    · simp [AnswerItem.result, ReadVarResult.item, hok]
    · simp [AnswerItem.result, ReadVarResult.item, hok, (h.refused hok).2]
  · cases last with
    | true => rfl
    | false =>
      rcases Nat.mod_two_eq_zero_or_one r.data.length with heven | hodd
      · simp [heven]
      · simp [hodd]
  · simp [resultBytes, dataHeader]

/-- The encoder writes the items of its results. -/
theorem readVarResultBytes_series {results : List ReadVarResult} (h : ∀ r ∈ results, Readable r) :
    ∃ items : List AnswerItem, items.length = results.length ∧
      items.map AnswerItem.result = results.map ReadVarResult.item ∧
      Series AnswerItem.Stands items (readVarResultBytes results) := by
  induction results with
  | nil => exact ⟨[], rfl, rfl, rfl⟩
  | cons r rs ih =>
    obtain ⟨hr, hrs⟩ := List.forall_mem_cons.mp h
    obtain ⟨item, hresult, hstands⟩ := resultBytes_stands hr rs.isEmpty
    obtain ⟨items, hlen, hresults, hseries⟩ := ih hrs
    refine ⟨item :: items, by simp [hlen], by simp [hresult, hresults], resultBytes r rs.isEmpty, readVarResultBytes rs, ?_,
      hseries, readVarResultBytes_cons r rs⟩
    rwa [isEmpty_eq_of_length_eq hlen]

/-- The client decodes the results in the order they were written. -/
theorem parseReadVarResponse_results {results : List ReadVarResult} (hn : results.length ≤ 255)
    (h : ∀ r ∈ results, Readable r) :
    parseReadVarResponse [funcReadVar, UInt8.ofNat results.length] (readVarResultBytes results) =
      .ok (results.map ReadVarResult.item) := by
  obtain ⟨items, hlen, hresults, hseries⟩ := readVarResultBytes_series h
  refine parseReadVarResponse_eq_ok.mpr ⟨⟨by simp, rfl⟩, items, ?_, hresults, _, [], hseries, by simp⟩
  rw [hlen]
  exact (UInt8.toNat_ofNat_of_lt' (by simp [UInt8.size]; omega)).symm

/-- Whatever results with exact length fields an answer holds, the client reads them back: the codes, the transport
    sizes, the raw lengths and the payloads. -/
theorem readVarResponse_round_trip (ref : UInt16) {results : List ReadVarResult} (hn : results.length ≤ 255)
    (h : ∀ r ∈ results, Readable r) (hsize : (readVarResultBytes results).length ≤ 65535) :
    ∃ out header rest, encodeReadVarResponse ref results = .ok out ∧ parseS7Header out = .ok (header, rest) ∧
      parseReadVarResponse (rest.take header.paramLength.toNat)
        ((rest.drop header.paramLength.toNat).take header.dataLength.toNat) = .ok (results.map ReadVarResult.item) := by
  have hparse : parseS7Header (ackData ref 0 0 [funcReadVar, UInt8.ofNat results.length] (readVarResultBytes results)) =
    .ok _ := parseS7Header_ackData (by simp) hsize
  refine ⟨_, _, _, ?_, hparse, ?_⟩
  · rw [encodeReadVarResponse, if_neg (by omega), encodeAckData_eq (by simp) hsize]
  · dsimp only
    rw [uint16_toNat_ofNat (by simp), uint16_toNat_ofNat (by omega), List.take_left, List.drop_left, List.take_length]
    exact parseReadVarResponse_results hn h

/-- A refused item between odd payloads, and an item whose length field counts bits. -/
theorem readVarResponse_round_trip_mixed :
    ∃ out header rest, encodeReadVarResponse 7
        [⟨0xFF, 0x09, 3, [1, 2, 3]⟩, { returnCode := 0x0A, rawLength := 5 }, ⟨0xFF, 0x04, 8, [9]⟩] = .ok out ∧
      parseS7Header out = .ok (header, rest) ∧
      parseReadVarResponse (rest.take header.paramLength.toNat)
        ((rest.drop header.paramLength.toNat).take header.dataLength.toNat) =
          .ok [⟨0xFF, 0x09, 3, [1, 2, 3]⟩, ⟨0x0A, 0, 5, []⟩, ⟨0xFF, 0x04, 8, [9]⟩] := by
  refine readVarResponse_round_trip 7 (by decide) ?_ (by decide)
  intro r hr
  simp only [List.mem_cons, List.not_mem_nil, or_false] at hr
  rcases hr with rfl | rfl | rfl
  · exact ⟨fun h => absurd rfl h, fun _ => rfl⟩
  · exact ⟨fun _ => ⟨rfl, rfl⟩, fun h => absurd h (by decide)⟩
  · exact ⟨fun h => absurd rfl h, fun _ => rfl⟩

theorem WellFormed.readable {r : ReadVarResult} (h : WellFormed r) (hle : r.data.length ≤ 8191) : Readable r :=
  ⟨fun hno => ⟨(h.refused hno).1, (h.refused hno).2.2⟩, fun hok => h.read hok hle⟩

theorem parseReadVarResponse_eq {results : List ReadVarResult} (hn : results.length ≤ 255)
    (hwf : ∀ r ∈ results, WellFormed r) (hle : ∀ r ∈ results, r.data.length ≤ 8191) :
    parseReadVarResponse [funcReadVar, UInt8.ofNat results.length] (readVarResultBytes results) =
      .ok (results.map ReadVarResult.item) :=
  parseReadVarResponse_results hn fun r hr => (hwf r hr).readable (hle r hr)

theorem wellFormed_results {mem : Memory} {l : List (VarSpec × Option (List DBReadArea))}
    {results : List ReadVarResult} (h : List.Forall₂ (fun p r => itemResult mem p.1 p.2 = .ok r) l results) :
    ∀ r ∈ results, WellFormed r := by
  induction h with
  | nil => simp
  | @cons p r _ _ hr _ ih =>
    obtain ⟨r', hr', hwf, -⟩ := itemResult_spec mem p.1 p.2
    rw [hr] at hr'
    cases hr'
    exact List.forall_mem_cons.mpr ⟨hwf, ih⟩

theorem length_data_le {results : List ReadVarResult} :
    ∀ r ∈ results, r.data.length ≤ readVarResultsSize results := by
  induction results with
  | nil => simp
  | cons r rs ih =>
    have hsize := readVarResultSize_eq r rs.isEmpty
    refine List.forall_mem_cons.mpr ⟨?_, fun r' hr' => ?_⟩
    · rw [readVarResultsSize]
      omega
    · rw [readVarResultsSize]
      exact Nat.le_trans (ih r' hr') (Nat.le_add_left _ _)

theorem forall₂_getElem? {α β : Type} {R : α → β → Prop} {as : List α} {bs : List β} (h : List.Forall₂ R as bs)
    {i : Nat} {a : α} {b : β} (ha : as[i]? = some a) (hb : bs[i]? = some b) : R a b := by
  obtain ⟨hi, rfl⟩ := List.getElem?_eq_some_iff.mp ha
  obtain ⟨hj, rfl⟩ := List.getElem?_eq_some_iff.mp hb
  exact h.get hi hj

/-- The answer to a Read Var job says what the memory holds. The job is refused whole exactly when its results do
    not fit the PDU; otherwise the client finds one item per specification, with the code the session computed
    and, when that is success, the bytes of the item in memory. -/
theorem read_answer_meaning {s : Session} (hs : s.pduSize ≤ maxPDUSize) (ref : UInt16) {param : Bytes}
    {specs : List VarSpec} (h : parseReadVarRequest param = .ok specs) :
    ∃ ranges results, parseReadVarDBRead param = .ok ranges ∧ ranges.length = specs.length ∧
      results.length = specs.length ∧
      (∀ (i : Nat) spec range result, specs[i]? = some spec → ranges[i]? = some range → results[i]? = some result →
        itemResult s.mem spec range = .ok result) ∧
      ((∃ out header rest, read s ref param = .ok out ∧ parseS7Header out = .ok (header, rest) ∧
          header.errorClass = 0x85 ∧ header.errorCode = 0x00) ↔
        s.pduSize < 14 + readVarResultsSize results) ∧
      (14 + readVarResultsSize results ≤ s.pduSize →
        ∃ out p d items, read s ref param = .ok out ∧ out.length = 14 + readVarResultsSize results ∧
          responseSections out ref = .ok (p, d) ∧ parseReadVarResponse p d = .ok items ∧
          items.length = specs.length ∧
          ∀ (i : Nat) spec range (result : ReadVarResult) (item : ReadVarItem), specs[i]? = some spec →
            ranges[i]? = some range → results[i]? = some result → items[i]? = some item →
              item.returnCode = result.returnCode ∧
                (item.returnCode = retCodeSuccess → item.data = itemBytes s.mem spec range)) := by
  obtain ⟨ranges, results, hranges, hlen, hall, hread⟩ := read_eq s ref h
  have hspecs := parseVarSpecs_length h
  have hresults : results.length = specs.length := by
    rw [← hall.length_eq, List.length_zip, hlen, Nat.min_self]
  have hitem : ∀ (i : Nat) spec range result, specs[i]? = some spec → ranges[i]? = some range →
      results[i]? = some result → itemResult s.mem spec range = .ok result :=
    fun i spec range result hspec hrange hresult =>
      forall₂_getElem? (a := (spec, range)) hall (List.getElem?_zip_eq_some.mpr ⟨hspec, hrange⟩) hresult
  have hdata : readVarResultsSize results = (readVarResultBytes results).length :=
    (length_readVarResultBytes results).symm
  have hfits : 14 + readVarResultsSize results ≤ s.pduSize →
      read s ref param = .ok (ackData ref 0 0 [funcReadVar, UInt8.ofNat results.length] (readVarResultBytes results)) ∧
        (readVarResultBytes results).length ≤ 4082 := by
    intro hle
    have hs' : s.pduSize ≤ 4096 := hs
    have hshort : (readVarResultBytes results).length ≤ 4082 := by omega
    rw [hread, if_neg (by omega), encodeReadVarResponse, if_neg (by omega),
      encodeAckData_eq (by simp) (by omega)]
    exact ⟨rfl, hshort⟩
  refine ⟨ranges, results, hranges, hlen, hresults, hitem, ⟨?_, ?_⟩, ?_⟩
  · rintro ⟨out, header, rest, hout, hparse, hclass, -⟩
    by_contra hle
    obtain ⟨hok, hshort⟩ := hfits (by omega)
    rw [hok] at hout
    cases hout
    rw [parseS7Header_ackData (by simp) (by omega)] at hparse
    cases hparse
    exact absurd hclass (show (0 : UInt8) ≠ 0x85 by decide)
  · intro hgt
    rw [if_pos hgt] at hread
    exact ⟨_, _, _, hread, parseS7Header_ackData (by simp) (by simp), rfl, rfl⟩
  · intro hle
    obtain ⟨hok, hshort⟩ := hfits hle
    have hsmall : ∀ r ∈ results, r.data.length ≤ 8191 := fun r hr => by
      have := length_data_le r hr
      omega
    refine ⟨_, _, _, _, hok, ?_, responseSections_ackData ?_,
      parseReadVarResponse_eq (by omega) (wellFormed_results hall) hsmall, by simp [hresults], ?_⟩
    · simp [hdata, Nat.add_comm]
    · simp only [List.length_cons, List.length_nil]
      omega
    · intro i spec range result item hspec hrange hresult hitem'
      rw [List.getElem?_map, hresult] at hitem'
      cases hitem'
      obtain ⟨r, hr, -, hbytes⟩ := itemResult_spec s.mem spec range
      rw [hitem i spec range result hspec hrange hresult] at hr
      cases hr
      exact ⟨rfl, hbytes⟩

/-- A session on a memory with three bytes of DB1. -/
def dbSession : Session := ⟨Memory.empty.set { area := areaDB, db := 1 } ⟨[0x11, 0x22, 0x33], false⟩, 240⟩

/-- A job with an S7ANY item and a DBREAD item, both of DB1. -/
def dbReadParam : Bytes :=
  [funcReadVar, 2] ++ putS7Any transportSizeByte 3 1 areaDB 0 ++
    [0x12, 0x07, syntaxIDDBRead, 0x01, 0x02, 0x00, 0x01, 0x00, 0x01]

def dbSpecs : List VarSpec := [⟨syntaxIDS7Any, transportSizeByte, 3, 1, areaDB, 0⟩, { syntaxID := syntaxIDDBRead }]

theorem read_answer_meaning_db1 :
    parseReadVarRequest dbReadParam = .ok dbSpecs ∧ dbSession.pduSize ≤ maxPDUSize ∧
      ∃ ranges results, parseReadVarDBRead dbReadParam = .ok ranges ∧ results.length = 2 ∧
        ((∃ out header rest, read dbSession 1 dbReadParam = .ok out ∧ parseS7Header out = .ok (header, rest) ∧
            header.errorClass = 0x85 ∧ header.errorCode = 0x00) ↔
          dbSession.pduSize < 14 + readVarResultsSize results) := by
  have hparse : parseReadVarRequest dbReadParam = .ok dbSpecs := by decide
  have hsize : dbSession.pduSize ≤ maxPDUSize := by decide
  obtain ⟨ranges, results, hranges, -, hlen, -, hiff, -⟩ := read_answer_meaning hsize 1 hparse
  exact ⟨hparse, hsize, ranges, results, hranges, hlen, hiff⟩

/-! ### Write Var -/

theorem parseWriteVarResponseCodes_eq {codes : Bytes} (hpos : 0 < codes.length) (hn : codes.length ≤ 255) :
    parseWriteVarResponseCodes [funcWriteVar, UInt8.ofNat codes.length] codes = .ok codes := by
  have hcount : (UInt8.ofNat codes.length).toNat = codes.length := by
    simp
    omega
  unfold parseWriteVarResponseCodes
  rw [if_neg (by simp)]
  simp only [index_zero, index_succ, Outcome.ok_bind, ne_eq, not_true_eq_false, ↓reduceIte, hcount]
  rw [if_neg (by omega)]
  exact slice_zero_length codes

end S7Comm
