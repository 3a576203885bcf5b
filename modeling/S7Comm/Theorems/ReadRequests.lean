import S7Comm.Theorems.JobGrammar

/-! Read Var requests. The client's encoder and the server's decoder are exact inverses of each other on S7ANY items,
    and the two walks over a parameter section, for the specifications and for the DBREAD ranges, agree. -/

namespace S7Comm
open Go

/-! ### Encoding addresses -/

/-- The address has a place in an S7ANY item. -/
def S7AnyAddress.InRange (addr : S7AnyAddress) : Prop :=
  (0 ≤ addr.dbNumber ∧ addr.dbNumber ≤ 65535) ∧ (0 ≤ addr.start ∧ addr.start ≤ 2097151) ∧
    (0 ≤ addr.size ∧ addr.size ≤ 65535)

/-- The specification is an S7ANY item of transport size BYTE with the fields of the address. -/
structure Describes (addr : S7AnyAddress) (spec : VarSpec) : Prop where
  syntaxID : spec.syntaxID = syntaxIDS7Any
  transportSize : spec.transportSize = transportSizeByte
  area : spec.area = addr.area
  dbNumber : (spec.dbNumber.toNat : Int) = addr.dbNumber
  count : (spec.count.toNat : Int) = addr.size
  startBit : (spec.startBit.toNat : Int) = 8 * addr.start

theorem encodeS7Any_of_inRange {addr : S7AnyAddress} (h : addr.InRange) :
    ∃ item : JobItem, encodeS7Any addr = .ok item.bytes ∧ item.bytes.length = varSpecSize ∧
      Describes addr item.spec := by
  obtain ⟨⟨hdb₀, hdb⟩, ⟨hstart₀, hstart⟩, hsize₀, hsize⟩ := h
  have hdb' : (maxS7AnyDBNumber : Int) = 65535 := rfl
  have hstart' : (maxS7AnyByteOffset : Int) = 2097151 := rfl
  have hsize' : (maxS7AnyCount : Int) = 65535 := rfl
  have hbit : (UInt32.ofNat addr.start.toNat <<< 3).toNat = 8 * addr.start.toNat := by
    rw [UInt32.toNat_shiftLeft, Nat.shiftLeft_eq]
    simp
    omega
  refine ⟨.s7any transportSizeByte (UInt16.ofNat addr.size.toNat) (UInt16.ofNat addr.dbNumber.toNat) addr.area
    (UInt32.ofNat addr.start.toNat <<< 3) (by rw [hbit]; omega), ?_, rfl, rfl, rfl, rfl, ?_, ?_, ?_⟩
  · unfold encodeS7Any
    rw [if_neg (by omega), if_neg (by omega), if_neg (by omega)]
    rfl
  · simp only [JobItem.spec]
    rw [uint16_toNat_ofNat (by omega), Int.toNat_of_nonneg hdb₀]
  · simp only [JobItem.spec]
    rw [uint16_toNat_ofNat (by omega), Int.toNat_of_nonneg hsize₀]
  · simp only [JobItem.spec]
    rw [hbit]
    omega

theorem encodeS7Any_of_not_inRange {addr : S7AnyAddress} (h : ¬addr.InRange) :
    ∃ e, encodeS7Any addr = .fail e ∧ e.is .outOfRange := by
  unfold encodeS7Any
  split
  · exact ⟨_, rfl, rfl⟩
  split
  · exact ⟨_, rfl, rfl⟩
  split
  · exact ⟨_, rfl, rfl⟩
  have hdb : (maxS7AnyDBNumber : Int) = 65535 := rfl
  have hstart : (maxS7AnyByteOffset : Int) = 2097151 := rfl
  have hsize : (maxS7AnyCount : Int) = 65535 := rfl
  exact absurd ⟨by omega, by omega, by omega⟩ h

/-- Addresses in range are encoded one by one. -/
theorem mapM_encodeS7Any_ok {addrs : List S7AnyAddress} (h : ∀ addr ∈ addrs, addr.InRange) :
    ∃ items : List JobItem, items.length = addrs.length ∧ addrs.mapM encodeS7Any = .ok (items.map JobItem.bytes) ∧
      (items.flatMap JobItem.bytes).length = addrs.length * varSpecSize ∧
      List.Forall₂ Describes addrs (items.map JobItem.spec) := by
  induction addrs with
  | nil => exact ⟨[], rfl, rfl, rfl, .nil⟩
  | cons addr addrs ih =>
    obtain ⟨item, hitem, hsize, hdesc⟩ := encodeS7Any_of_inRange (h addr (by simp))
    obtain ⟨items, hlen, hitems, hsizes, hdescs⟩ := ih fun a ha => h a (by simp [ha])
    refine ⟨item :: items, by simp [hlen], ?_, ?_, .cons hdesc hdescs⟩
    · rw [List.mapM_cons, hitem, hitems]
      rfl
    · rw [List.flatMap_cons, List.length_append, hsize, hsizes, List.length_cons]
      ring

theorem mapM_encodeS7Any_fail {addrs : List S7AnyAddress} (h : ∃ addr ∈ addrs, ¬addr.InRange) :
    ∃ e, addrs.mapM encodeS7Any = .fail e ∧ e.is .outOfRange := by
  induction addrs with
  | nil => simp at h
  | cons addr addrs ih =>
    rw [List.mapM_cons]
    by_cases hr : addr.InRange
    · obtain ⟨item, hitem, -⟩ := encodeS7Any_of_inRange hr
      have hrest : ∃ a ∈ addrs, ¬a.InRange := by simpa [hr] using h
      obtain ⟨e, he, hout⟩ := ih hrest
      exact ⟨e, by rw [hitem, Outcome.ok_bind, he]; rfl, hout⟩
    · obtain ⟨e, he, hout⟩ := encodeS7Any_of_not_inRange hr
      exact ⟨e, by rw [he]; rfl, hout⟩

theorem encodeReadVarRequest_of_inRange (ref : UInt16) {addrs : List S7AnyAddress} (hle : addrs.length ≤ 255)
    (h : ∀ addr ∈ addrs, addr.InRange) :
    ∃ items : List JobItem, items.length = addrs.length ∧ List.Forall₂ Describes addrs (items.map JobItem.spec) ∧
      (jobParam funcReadVar items).length ≤ 65535 ∧
      encodeReadVarRequest ref addrs = .ok (message rosctrJob ref (jobParam funcReadVar items) []) := by
  obtain ⟨items, hlen, hitems, hsize, hdesc⟩ := mapM_encodeS7Any_ok h
  have hle' : (jobParam funcReadVar items).length ≤ 65535 := by
    rw [jobParam, List.length_append, hsize, varSpecSize, List.length_cons, List.length_singleton]
    omega
  refine ⟨items, hlen, hdesc, hle', ?_⟩
  unfold encodeReadVarRequest
  dsimp only
  rw [if_neg (by simp only [maxReadVarItems]; omega), hitems, Outcome.ok_bind, ← hlen, ← List.flatMap_def]
  exact encodeMessage_eq hle' (by simp)

theorem encodeReadVarRequest_of_not_inRange (ref : UInt16) {addrs : List S7AnyAddress} (hle : addrs.length ≤ 255)
    (h : ∃ addr ∈ addrs, ¬addr.InRange) : ∃ e, encodeReadVarRequest ref addrs = .fail e ∧ e.is .outOfRange := by
  obtain ⟨e, he, hout⟩ := mapM_encodeS7Any_fail h
  unfold encodeReadVarRequest
  dsimp only
  rw [if_neg (by simp only [maxReadVarItems]; omega), he]
  exact ⟨e, rfl, hout⟩

/-- S7ANY items are what `putS7Any` makes of their specifications. -/
theorem flatMap_putS7Any {items : List JobItem} (h : ∀ spec ∈ items.map JobItem.spec, spec.syntaxID = syntaxIDS7Any) :
    (items.map JobItem.spec).flatMap
      (fun s => putS7Any s.transportSize s.count s.dbNumber s.area s.startBit) = items.flatMap JobItem.bytes := by
  induction items with
  | nil => rfl
  | cons item items ih =>
    rw [List.map_cons, List.forall_mem_cons] at h
    rw [List.map_cons, List.flatMap_cons, List.flatMap_cons, ih h.2]
    cases item with
    | s7any => rfl
    | dbRead ranges => exact absurd (show syntaxIDDBRead = syntaxIDS7Any from h.1) (by decide)
    | other body le ne_any => exact absurd h.1 ne_any

/-- The Read Var request codec is exact in both directions: encoding fails, as out of range, exactly when an address
    has no place in an item, and otherwise decoding gives the addresses back; a section of S7ANY items is what its
    specifications encode to. -/
theorem readVarRequest_codec_exact :
    (∀ (ref : UInt16) (addrs : List S7AnyAddress), 1 ≤ addrs.length → addrs.length ≤ 255 →
      ((∃ e, encodeReadVarRequest ref addrs = .fail e ∧ e.is .outOfRange) ↔ ∃ addr ∈ addrs, ¬addr.InRange) ∧
      ((∀ addr ∈ addrs, addr.InRange) → ∃ out header rest specs, encodeReadVarRequest ref addrs = .ok out ∧
        parseS7Header out = .ok (header, rest) ∧
        parseReadVarRequest (rest.take header.paramLength.toNat) = .ok specs ∧ List.Forall₂ Describes addrs specs)) ∧
    (∀ (ref : UInt16) (addrs : List S7AnyAddress), 255 < addrs.length →
      ∃ e, encodeReadVarRequest ref addrs = .fail e ∧ e.is .outOfRange) ∧
    (∀ (param : Bytes) (specs : List VarSpec), parseReadVarRequest param = .ok specs →
      (∀ spec ∈ specs, spec.syntaxID = syntaxIDS7Any) →
      [funcReadVar, UInt8.ofNat specs.length] ++
        specs.flatMap (fun s => putS7Any s.transportSize s.count s.dbNumber s.area s.startBit) = param) := by
  refine ⟨?_, ?_, ?_⟩
  · intro ref addrs hpos hle
    refine ⟨⟨?_, encodeReadVarRequest_of_not_inRange ref hle⟩, ?_⟩
    · rintro ⟨e, he, -⟩
      by_contra hall
      have hall' : ∀ addr ∈ addrs, addr.InRange := fun a ha => not_not.mp fun hr => hall ⟨a, ha, hr⟩
      obtain ⟨items, -, -, -, hok⟩ := encodeReadVarRequest_of_inRange ref hle hall'
      rw [hok] at he
      cases he
    · intro hall
      obtain ⟨items, hlen, hdesc, hsize, hok⟩ := encodeReadVarRequest_of_inRange ref hle hall
      have hparse : parseS7Header (message rosctrJob ref (jobParam funcReadVar items) []) = .ok _ :=
        parseS7Header_message (by decide) hsize (by simp)
      refine ⟨_, _, _, items.map JobItem.spec, hok, hparse, ?_, hdesc⟩
      dsimp only
      rw [uint16_toNat_ofNat (by omega), List.append_nil, List.take_length]
      exact parseVarSpecs_eq_ok.mpr ⟨items, by omega, by omega, rfl, rfl⟩
  · intro ref addrs hlt
    unfold encodeReadVarRequest
    dsimp only
    rw [if_pos (by simp only [maxReadVarItems]; omega)]
    exact ⟨_, rfl, rfl⟩
  · intro param specs hok hany
    obtain ⟨items, -, -, rfl, rfl⟩ := parseVarSpecs_eq_ok.mp hok
    rw [flatMap_putS7Any hany, List.length_map]
    rfl

/-! ### DBREAD ranges -/

section Ranges
variable {param : Bytes} {off : Nat}

/-- An item is a specification type, a length byte and a body of that length. -/
theorem JobItem.frame (item : JobItem) :
    ∃ len body, item.bytes = [0x12, len] ++ body ∧ body.length = len.toNat := by
  cases item with
  | s7any transport count dbNumber area startBit lt => exact ⟨0x0A, _, rfl, rfl⟩
  | dbRead ranges pos le =>
    refine ⟨_, _, rfl, ?_⟩
    rw [UInt8.toNat_ofNat_of_lt' (by simp [UInt8.size, dbReadAreaSize]; omega)]
    simp
    omega
  | other body le ne_any ne_dbRead =>
    exact ⟨_, body, rfl, (UInt8.toNat_ofNat_of_lt' (by simp [UInt8.size]; omega)).symm⟩

theorem indexAt_length {item : JobItem} (h : StandsAt param off item.bytes) :
    ∃ len, indexAt param (off + 1) = .ok len ∧ off + 2 + len.toNat = off + item.bytes.length := by
  obtain ⟨len, body, hitem, hlen⟩ := item.frame
  rw [hitem] at h ⊢
  obtain ⟨hhead, -⟩ := standsAt_append.mp h
  refine ⟨len, index_eq_ok_iff.mpr (standsAt_cons.mp hhead).2, ?_⟩
  rw [List.length_append, hlen, List.length_cons, List.length_singleton]
  omega

theorem JobItem.syntaxID_eq_dbRead (item : JobItem) :
    item.spec.syntaxID = syntaxIDDBRead ↔ item.ranges.isSome := by
  cases item with
  | s7any => simp [spec, ranges, syntaxIDS7Any, syntaxIDDBRead]
  | dbRead => simp [spec, ranges]
  | other body le ne_any ne_dbRead => simpa [spec, ranges] using ne_dbRead

theorem JobItem.parseDBRead_bytes {item : JobItem} {rs : List DBReadArea} (h : item.ranges = some rs) :
    parseDBRead item.bytes = .ok rs ∧ item.bytes = dbReadItem rs := by
  cases item with
  | s7any => cases h
  | dbRead ranges pos le =>
    cases h
    exact ⟨parseDBRead_eq_ok.mpr ⟨pos, by omega, rfl⟩, rfl⟩
  | other => cases h

theorem itemRanges_eq {item : JobItem} (h : StandsAt param off item.bytes) :
    itemRanges param item.spec off (off + item.bytes.length) = .ok item.ranges := by
  have hslice : sliceOf param off (off + item.bytes.length) = .ok item.bytes := slice_eq_ok_iff.mpr ⟨h, rfl⟩
  unfold itemRanges
  cases hr : item.ranges with
  | none =>
    have hne : item.spec.syntaxID ≠ syntaxIDDBRead := by
      rw [Ne, item.syntaxID_eq_dbRead, hr]
      simp
    rw [if_neg hne]
    rfl
  | some rs =>
    have heq : item.spec.syntaxID = syntaxIDDBRead := by
      rw [item.syntaxID_eq_dbRead, hr]
      rfl
    rw [if_pos heq, hslice, Outcome.ok_bind, (JobItem.parseDBRead_bytes hr).1]
    rfl

/-- The second walk stops where the items do, and finds their ranges. -/
theorem dbReadRanges_eq {items : List JobItem} (h : StandsAt param off (items.flatMap JobItem.bytes)) :
    dbReadRanges param (items.map JobItem.spec) off = .ok (items.map JobItem.ranges) := by
  induction items generalizing off with
  | nil => rfl
  | cons item items ih =>
    rw [List.flatMap_cons, standsAt_append] at h
    obtain ⟨len, hlen, hstop⟩ := indexAt_length h.1
    rw [List.map_cons]
    unfold dbReadRanges
    rw [hlen, Outcome.ok_bind]
    dsimp only
    rw [hstop, itemRanges_eq h.1, Outcome.ok_bind, ih h.2]
    rfl

theorem parseReadVarDBRead_eq {items : List JobItem} (hpos : 0 < items.length) (hle : items.length ≤ 255) :
    parseReadVarDBRead (jobParam funcReadVar items) = .ok (items.map JobItem.ranges) := by
  have hspecs : parseVarSpecs (jobParam funcReadVar items) funcReadVar = .ok (items.map JobItem.spec) :=
    parseVarSpecs_eq_ok.mpr ⟨items, hpos, hle, rfl, rfl⟩
  unfold parseReadVarDBRead
  rw [hspecs, Outcome.ok_bind]
  exact dbReadRanges_eq ((standsAt_append_end _).mpr rfl).1

/-- The bytes of the `left` items from `off` on, each as long as its length byte says. -/
def itemSlices (param : Bytes) : (left off : Nat) → List Bytes
  | 0, _ => []
  | left + 1, off =>
    let size := 2 + (param.getD (off + 1) 0).toNat
    (param.drop off).take size :: itemSlices param left (off + size)

theorem itemSlices_eq {items : List JobItem} (h : StandsAt param off (items.flatMap JobItem.bytes)) :
    itemSlices param items.length off = items.map JobItem.bytes := by
  induction items generalizing off with
  | nil => rfl
  | cons item items ih =>
    rw [List.flatMap_cons, standsAt_append] at h
    obtain ⟨len, hlen, hstop⟩ := indexAt_length h.1
    have hsize : 2 + (param.getD (off + 1) 0).toNat = item.bytes.length := by
      rw [List.getD_eq_getElem?_getD, index_eq_ok.mp hlen, Option.getD_some]
      omega
    rw [List.length_cons, itemSlices, hsize, h.1.drop, ih h.2, List.map_cons]

end Ranges

/-- The two walks over a parameter section agree. They accept the same sections and find as many items; an item has
    ranges exactly when its syntax is DBREAD, its bytes then decode without error, and they are what the ranges encode
    to. -/
theorem parseReadVarDBRead_consistent (param : Bytes) :
    ((∃ ranges, parseReadVarDBRead param = .ok ranges) ↔ ∃ specs, parseReadVarRequest param = .ok specs) ∧
    ∀ specs ranges, parseReadVarRequest param = .ok specs → parseReadVarDBRead param = .ok ranges →
      ranges.length = specs.length ∧
      ∀ (i : Nat) (spec : VarSpec), specs[i]? = some spec → ∃ item, (itemSlices param specs.length 2)[i]? = some item ∧
        ((spec.syntaxID ≠ syntaxIDDBRead ∧ ranges[i]? = some none) ∨
         (spec.syntaxID = syntaxIDDBRead ∧ ∃ rs, ranges[i]? = some (some rs) ∧ parseDBRead item = .ok rs ∧
            dbReadItem rs = item)) := by
  refine ⟨⟨?_, ?_⟩, ?_⟩
  · rintro ⟨ranges, h⟩
    obtain ⟨specs, hspecs, -⟩ := Outcome.bind_eq_ok.mp h
    exact ⟨specs, hspecs⟩
  · rintro ⟨specs, h⟩
    obtain ⟨items, hpos, hle, rfl, rfl⟩ := parseVarSpecs_eq_ok.mp h
    exact ⟨_, parseReadVarDBRead_eq hpos hle⟩
  · intro specs ranges hspecs hranges
    obtain ⟨items, hpos, hle, rfl, rfl⟩ := parseVarSpecs_eq_ok.mp hspecs
    rw [parseReadVarDBRead_eq hpos hle] at hranges
    cases hranges
    have hslices : itemSlices (jobParam funcReadVar items) items.length 2 = items.map JobItem.bytes :=
      itemSlices_eq ((standsAt_append_end _).mpr rfl).1
    refine ⟨by simp, ?_⟩
    intro i spec hspec
    rw [List.getElem?_map, Option.map_eq_some_iff] at hspec
    obtain ⟨item, hitem, rfl⟩ := hspec
    rw [List.length_map, hslices, List.getElem?_map, List.getElem?_map, hitem]
    refine ⟨item.bytes, rfl, ?_⟩
    cases hr : item.ranges with
    | none =>
      refine .inl ⟨?_, by simp [hr]⟩
      rw [Ne, item.syntaxID_eq_dbRead, hr]
      simp
    | some rs =>
      obtain ⟨hparse, hbytes⟩ := JobItem.parseDBRead_bytes hr
      refine .inr ⟨?_, rs, by simp [hr], hparse, hbytes.symm⟩
      rw [item.syntaxID_eq_dbRead, hr]
      rfl

end S7Comm
