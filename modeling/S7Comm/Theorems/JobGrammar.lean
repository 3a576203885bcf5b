import S7Comm.Theorems.Header
import S7Comm.Theorems.Jobs
import S7Comm.Wire.Grammar

/-! The decoders of jobs accept exactly the grammar: a parameter section is accepted if and only if it is the
    serialisation of well-formed items, and what is returned is what these items stand for. -/

namespace S7Comm
open Go

/-! ### DBREAD items -/

@[simp] theorem length_dbReadArea_bytes (r : DBReadArea) : r.bytes.length = dbReadAreaSize := by
  simp [DBReadArea.bytes, dbReadAreaSize]

@[simp] theorem length_flatMap_dbReadArea_bytes (ranges : List DBReadArea) :
    (ranges.flatMap DBReadArea.bytes).length = ranges.length * dbReadAreaSize := by
  simp [List.length_flatMap]

theorem dbReadAreas_eq_ok {b : Bytes} {left i : Nat} {areas : List DBReadArea} (h : 4 + i * dbReadAreaSize ≤ b.length) :
    dbReadAreas b left i = .ok areas ↔
      areas.length = left ∧ StandsAt b (4 + i * dbReadAreaSize) (areas.flatMap DBReadArea.bytes) := by
  induction left generalizing i areas with
  | zero =>
    constructor
    · intro hok
      cases hok
      exact ⟨rfl, standsAt_nil h⟩
    · rintro ⟨hlen, -⟩
      rw [List.eq_nil_of_length_eq_zero hlen]
      rfl
  | succ left ih =>
    have hr : StandsAt b (4 + i * dbReadAreaSize) (b.drop (4 + i * dbReadAreaSize)) := standsAt_drop h
    have hslice : sliceOf b (4 + i * dbReadAreaSize) b.length = .ok (b.drop (4 + i * dbReadAreaSize)) :=
      slice_eq_ok_iff.mpr ⟨hr, by rw [List.length_drop]; omega⟩
    have hnext : 4 + (i + 1) * dbReadAreaSize = 4 + i * dbReadAreaSize + dbReadAreaSize := by ring
    unfold dbReadAreas
    rw [hslice, Outcome.ok_bind]
    constructor
    · intro hok
      obtain ⟨length, h₁, hok⟩ := Outcome.bind_eq_ok.mp hok
      obtain ⟨dbNumber, h₂, hok⟩ := Outcome.bind_eq_ok.mp hok
      obtain ⟨start, h₃, hok⟩ := Outcome.bind_eq_ok.mp hok
      obtain ⟨rest, h₄, hok⟩ := Outcome.bind_eq_ok.mp hok
      cases hok
      have hrange : StandsAt b (4 + i * dbReadAreaSize) (DBReadArea.bytes ⟨length, dbNumber, start⟩) := by
        unfold DBReadArea.bytes
        rw [standsAt_append, standsAt_append]
        exact ⟨⟨hr.trans (index_eq_ok_iff.mp h₁), hr.trans (uint16At_eq_ok_iff.mp h₂)⟩,
          hr.trans (uint16At_eq_ok_iff.mp h₃)⟩
      have hle := hrange.le
      rw [length_dbReadArea_bytes] at hle
      obtain ⟨hlen, hrest⟩ := (ih (by omega)).mp h₄
      refine ⟨by simp [hlen], ?_⟩
      rw [List.flatMap_cons, standsAt_append, length_dbReadArea_bytes, ← hnext]
      exact ⟨hrange, hrest⟩
    · rintro ⟨hlen, hat⟩
      obtain ⟨⟨length, dbNumber, start⟩, areas, rfl⟩ := List.exists_cons_of_length_eq_add_one hlen
      rw [List.flatMap_cons, standsAt_append, length_dbReadArea_bytes, ← hnext] at hat
      obtain ⟨hrange, hrest⟩ := hat
      have hle := hrange.le
      rw [length_dbReadArea_bytes] at hle
      have hdrop : (b.drop (4 + i * dbReadAreaSize)).length = b.length - (4 + i * dbReadAreaSize) := List.length_drop
      have h₄ : dbReadAreas b left (i + 1) = .ok areas := (ih (by omega)).mpr ⟨Nat.succ.inj hlen, hrest⟩
      unfold DBReadArea.bytes at hrange
      rw [standsAt_append, standsAt_append] at hrange
      obtain ⟨⟨h₁, h₂⟩, h₃⟩ := hrange
      have hsize : dbReadAreaSize = 5 := rfl
      have h₁' : indexAt (b.drop (4 + i * dbReadAreaSize)) 0 = .ok length :=
        index_eq_ok_iff.mpr (hr.within h₁ (by simp; omega))
      have h₂' : wordAt (b.drop (4 + i * dbReadAreaSize)) 1 = .ok dbNumber :=
        uint16At_eq_ok_iff.mpr (hr.within h₂ (by rw [length_putUint16]; omega))
      have h₃' : wordAt (b.drop (4 + i * dbReadAreaSize)) 3 = .ok start :=
        uint16At_eq_ok_iff.mpr (hr.within h₃ (by rw [length_putUint16]; omega))
      rw [h₁', h₂', h₃', h₄]
      rfl

/-- The ranges of an item, whatever its first three bytes are. -/
theorem parseDBRead_eq_ok {x y z : UInt8} {b : Bytes} {areas : List DBReadArea} :
    parseDBRead (x :: y :: z :: b) = .ok areas ↔
      0 < areas.length ∧ areas.length ≤ 255 ∧ b = UInt8.ofNat areas.length :: areas.flatMap DBReadArea.bytes := by
  unfold parseDBRead
  cases b with
  | nil => simp
  | cons n b =>
    rw [if_neg (by simp)]
    simp only [index_succ, index_zero, Outcome.ok_bind]
    have hcount : ∀ {k : Nat}, k ≤ 255 → (n = UInt8.ofNat k ↔ n.toNat = k) := fun hk => uint8_eq_ofNat (by omega)
    have hn := n.toNat_lt
    have hareas : ∀ {areas}, dbReadAreas (x :: y :: z :: n :: b) n.toNat 0 = .ok areas ↔
        areas.length = n.toNat ∧ StandsAt ([x, y, z, n] ++ b) 4 (areas.flatMap DBReadArea.bytes) :=
      dbReadAreas_eq_ok (by simp)
    split
    · rename_i h
      simp only [reduceCtorEq, false_iff, List.cons.injEq, not_and]
      intro hpos hle heq hb
      rw [hcount hle] at heq
      subst hb
      rcases h with h | h
      · omega
      · apply h
        simp [heq]
        omega
    · rename_i h
      obtain ⟨hne, hlen⟩ := not_or.mp h
      rw [not_not] at hlen
      rw [hareas, List.cons.injEq]
      constructor
      · rintro ⟨hcnt, hat⟩
        refine ⟨by omega, by omega, (hcount (by omega)).mpr hcnt.symm, ?_⟩
        exact (standsAt_append_end [x, y, z, n]).mp ⟨hat, by rw [length_flatMap_dbReadArea_bytes, hcnt]; exact hlen.symm⟩
      · rintro ⟨-, hle, hcnt, hb⟩
        exact ⟨((hcount hle).mp hcnt).symm, ((standsAt_append_end [x, y, z, n]).mpr hb).1⟩

/-! ### Item specifications -/

/-- The fields of an S7ANY item stand where `putS7Any` puts them. -/
theorem parseS7Any_eq_ok {len : UInt8} {body : Bytes} {spec : VarSpec} (hlen : body.length = 10)
    (hsyn : body.headD 0 = syntaxIDS7Any) (h : parseS7Any (0x12 :: len :: body) = .ok spec) :
    ∃ transport count dbNumber area startBit, startBit.toNat < 2 ^ 24 ∧
      spec = ⟨syntaxIDS7Any, transport, count, dbNumber, area, startBit⟩ ∧
      [0x12, 0x0A] ++ body = putS7Any transport count dbNumber area startBit := by
  match body, hlen with
  | [s, t, c₁, c₀, d₁, d₀, a, x, y, z], _ =>
    obtain rfl : s = syntaxIDS7Any := hsyn
    cases h
    refine ⟨t, be16 c₁ c₀, be16 d₁ d₀, a, be24 x y z, be24_lt x y z, rfl, ?_⟩
    simp [putS7Any, putUint16_be16, putUint24_be24]

theorem parseS7Any_putS7Any (transport : UInt8) (count dbNumber : UInt16) (area : UInt8) {startBit : UInt32}
    (h : startBit.toNat < 2 ^ 24) :
    parseS7Any (putS7Any transport count dbNumber area startBit) =
      .ok ⟨syntaxIDS7Any, transport, count, dbNumber, area, startBit⟩ := by
  have hparse : ∀ c₁ c₀ d₁ d₀ x y z : UInt8,
      parseS7Any [0x12, 0x0A, syntaxIDS7Any, transport, c₁, c₀, d₁, d₀, area, x, y, z] =
        .ok ⟨syntaxIDS7Any, transport, be16 c₁ c₀, be16 d₁ d₀, area, be24 x y z⟩ := fun _ _ _ _ _ _ _ => rfl
  have := hparse (count >>> 8).toUInt8 count.toUInt8 (dbNumber >>> 8).toUInt8 dbNumber.toUInt8
    (startBit >>> 16 &&& 0xFF).toUInt8 (startBit >>> 8 &&& 0xFF).toUInt8 (startBit &&& 0xFF).toUInt8
  rwa [be16_putUint16, be16_putUint16, be24_putUint24 h] at this

section Item
variable {param : Bytes} {i off stop : Nat} {spec : VarSpec} {len : UInt8} {body : Bytes}

/-- The bytes that the decoder takes an item to be: specification type, length byte and a body of that length. -/
theorem parseVarSpec_frame (h : parseVarSpec param i off = .ok (spec, stop)) :
    ∃ len body, StandsAt param off ([0x12, len] ++ body) ∧ body.length = len.toNat := by
  unfold parseVarSpec at h
  split at h
  · cases h
  obtain ⟨specType, htype, h⟩ := Outcome.bind_eq_ok.mp h
  split at h
  · cases h
  rename_i hfit hspec
  rw [not_not] at hspec
  subst hspec
  obtain ⟨len, hlen, h⟩ := Outcome.bind_eq_ok.mp h
  dsimp only at h
  split at h
  · cases h
  have hbody : StandsAt param (off + 2) ((param.drop (off + 2)).take len.toNat) := standsAt_take_drop (by omega)
  refine ⟨len, (param.drop (off + 2)).take len.toNat, ?_, ?_⟩
  · rw [standsAt_append]
    exact ⟨standsAt_cons.mpr ⟨index_eq_ok_iff.mp htype, index_eq_ok_iff.mp hlen⟩, hbody⟩
  · rw [List.length_take, List.length_drop]
    omega

/-- The syntax ID of an item is the first byte of its body, or 0. -/
theorem itemSyntaxID_framed (hbody : StandsAt param (off + 2) body) (hlen : body.length = len.toNat) :
    itemSyntaxID param off len = .ok (body.headD 0) := by
  unfold itemSyntaxID
  cases body with
  | nil =>
    rw [if_neg (by rw [ge_iff_le, UInt8.le_iff_toNat_le, ← hlen]; decide)]
    rfl
  | cons x body =>
    rw [if_pos (by rw [ge_iff_le, UInt8.le_iff_toNat_le, ← hlen]; simp)]
    exact index_eq_ok_iff.mpr (standsAt_cons.mp hbody).1

/-- What the decoder makes of an item depends on its length byte and its body only. -/
theorem parseVarSpec_framed (hat : StandsAt param off ([0x12, len] ++ body)) (hlen : body.length = len.toNat) :
    parseVarSpec param i off = .ok (spec, stop) ↔ stop = off + 2 + len.toNat ∧
      ((body.headD 0 = syntaxIDS7Any ∧ body.length = 10 ∧ parseS7Any (0x12 :: len :: body) = .ok spec) ∨
       (body.headD 0 = syntaxIDDBRead ∧ spec = { syntaxID := syntaxIDDBRead } ∧
          ∃ areas, parseDBRead (0x12 :: len :: body) = .ok areas) ∨
       (body.headD 0 ≠ syntaxIDS7Any ∧ body.headD 0 ≠ syntaxIDDBRead ∧ spec = { syntaxID := body.headD 0 })) := by
  have hle := hat.le
  have hslice : sliceOf param off (off + 2 + len.toNat) = .ok (0x12 :: len :: body) :=
    slice_eq_ok_iff.mpr ⟨hat, by simp [hlen]; omega⟩
  rw [standsAt_append] at hat
  obtain ⟨hhead, hbody⟩ := hat
  obtain ⟨htype, hlenAt⟩ := standsAt_cons.mp hhead
  have htype' : indexAt param off = .ok 0x12 := index_eq_ok_iff.mpr htype
  have hlenAt' : indexAt param (off + 1) = .ok len := index_eq_ok_iff.mpr hlenAt
  have hsyn := itemSyntaxID_framed hbody hlen
  simp only [List.length_append, List.length_cons, List.length_nil] at hle
  unfold parseVarSpec
  rw [if_neg (by omega), htype', Outcome.ok_bind]
  dsimp only
  rw [if_neg (not_not.mpr rfl), hlenAt', Outcome.ok_bind, if_neg (by omega), hsyn, Outcome.ok_bind]
  clear hsyn hbody
  generalize body.headD 0 = id
  by_cases hany : id = syntaxIDS7Any
  · subst hany
    rw [if_pos rfl]
    by_cases hsize : body.length = 10
    · have hsize' : off + 2 + len.toNat - off = varSpecSize := by simp only [varSpecSize]; omega
      rw [if_neg (not_not.mpr hsize'), hslice, Outcome.ok_bind]
      constructor
      · intro h
        obtain ⟨spec', hspec, h⟩ := Outcome.bind_eq_ok.mp h
        cases h
        exact ⟨rfl, .inl ⟨rfl, hsize, hspec⟩⟩
      · rintro ⟨rfl, ⟨-, -, hspec⟩ | ⟨hdb, -⟩ | ⟨hne, -⟩⟩
        · rw [hspec]
          rfl
        · exact absurd hdb (by decide)
        · exact absurd rfl hne
    · have hsize' : off + 2 + len.toNat - off ≠ varSpecSize := by simp only [varSpecSize]; omega
      rw [if_pos hsize']
      constructor
      · nofun
      · rintro ⟨-, ⟨-, hten, -⟩ | ⟨hdb, -⟩ | ⟨hne, -⟩⟩
        · exact absurd hten hsize
        · exact absurd hdb (by decide)
        · exact absurd rfl hne
  · rw [if_neg hany]
    by_cases hdb : id = syntaxIDDBRead
    · subst hdb
      rw [if_pos rfl, hslice, Outcome.ok_bind]
      cases hp : parseDBRead (0x12 :: len :: body) with
      | ok areas =>
        constructor
        · intro h
          cases h
          exact ⟨rfl, .inr (.inl ⟨rfl, rfl, areas, rfl⟩)⟩
        · rintro ⟨rfl, ⟨h, -⟩ | ⟨-, rfl, -⟩ | ⟨-, hne, -⟩⟩
          · exact absurd h hany
          · rfl
          · exact absurd rfl hne
      | fail e =>
        constructor
        · nofun
        · rintro ⟨-, ⟨h, -⟩ | ⟨-, -, areas, h⟩ | ⟨-, hne, -⟩⟩
          · exact absurd h hany
          · cases h
          · exact absurd rfl hne
      | panic => exact absurd hp (parseDBRead_ne_panic _)
    · rw [if_neg hdb]
      constructor
      · intro h
        cases h
        exact ⟨rfl, .inr (.inr ⟨hany, hdb, rfl⟩)⟩
      · rintro ⟨rfl, ⟨h, -⟩ | ⟨h, -⟩ | ⟨-, -, rfl⟩⟩
        · exact absurd h hany
        · exact absurd h hdb
        · rfl

end Item

/-- The decoder accepts an item exactly when a well-formed one stands at its offset. -/
theorem parseVarSpec_eq_ok {param : Bytes} {i off stop : Nat} {spec : VarSpec} :
    parseVarSpec param i off = .ok (spec, stop) ↔
      ∃ item : JobItem, item.spec = spec ∧ StandsAt param off item.bytes ∧ stop = off + item.bytes.length := by
  constructor
  · intro h
    obtain ⟨len, body, hat, hlen⟩ := parseVarSpec_frame h
    have hlt := len.toNat_lt
    obtain ⟨rfl, hcases⟩ := (parseVarSpec_framed hat hlen).mp h
    rcases hcases with ⟨hsyn, hten, hany⟩ | ⟨hsyn, rfl, areas, hdb⟩ | ⟨hany, hdb, rfl⟩
    · obtain ⟨transport, count, dbNumber, area, startBit, hbit, rfl, hbytes⟩ := parseS7Any_eq_ok hten hsyn hany
      obtain rfl : len = 0x0A := UInt8.toNat_inj.mp (hlen.symm.trans hten)
      rw [hbytes] at hat
      exact ⟨.s7any transport count dbNumber area startBit hbit, rfl, hat, rfl⟩
    · match body, hsyn with
      | z :: b, hz =>
        cases hz
        obtain ⟨hpos, hle, rfl⟩ := parseDBRead_eq_ok.mp hdb
        have hsize : 2 + areas.length * dbReadAreaSize = len.toNat := by
          rw [← hlen]
          simp
          omega
        have hfifty : areas.length ≤ 50 := by
          simp only [dbReadAreaSize] at hsize
          omega
        have hlen' : len = UInt8.ofNat (2 + areas.length * dbReadAreaSize) :=
          (uint8_eq_ofNat (by omega)).mpr hsize.symm
        refine ⟨.dbRead areas hpos hfifty, rfl, ?_, ?_⟩
        · rw [hlen'] at hat
          exact hat
        · simp only [JobItem.bytes, dbReadItem, List.length_append, length_flatMap_dbReadArea_bytes, List.length_cons,
            List.length_nil]
          omega
    · have hlen' : len = UInt8.ofNat body.length := (uint8_eq_ofNat (by omega)).mpr hlen.symm
      refine ⟨.other body (by omega) hany hdb, rfl, hlen' ▸ hat, ?_⟩
      simp [JobItem.bytes, hlen]
      omega
  · rintro ⟨item, rfl, hat, rfl⟩
    cases item with
    | s7any transport count dbNumber area startBit lt =>
      have hframe : StandsAt param off ([0x12, 0x0A] ++ (putS7Any transport count dbNumber area startBit).drop 2) := hat
      exact (parseVarSpec_framed hframe rfl).mpr
        ⟨rfl, .inl ⟨rfl, rfl, parseS7Any_putS7Any transport count dbNumber area lt⟩⟩
    | dbRead ranges pos le =>
      have hsize : 2 + ranges.length * dbReadAreaSize < 256 := by
        simp only [dbReadAreaSize]
        omega
      have hlen : (syntaxIDDBRead :: UInt8.ofNat ranges.length :: ranges.flatMap DBReadArea.bytes).length =
          (UInt8.ofNat (2 + ranges.length * dbReadAreaSize)).toNat := by
        rw [UInt8.toNat_ofNat_of_lt' hsize]
        simp
        omega
      refine (parseVarSpec_framed hat hlen).mpr ⟨?_, .inr (.inl ⟨rfl, rfl, ranges, ?_⟩)⟩
      · simp only [← hlen, JobItem.bytes, dbReadItem, List.length_append, List.length_cons, List.length_nil]
        omega
      · exact parseDBRead_eq_ok.mpr ⟨pos, by omega, rfl⟩
    | other body le ne_any ne_dbRead =>
      have hlen : body.length = (UInt8.ofNat body.length).toNat :=
        (UInt8.toNat_ofNat_of_lt' (by simp [UInt8.size]; omega)).symm
      refine (parseVarSpec_framed hat hlen).mpr ⟨?_, .inr (.inr ⟨ne_any, ne_dbRead, rfl⟩)⟩
      rw [← hlen]
      simp [JobItem.bytes]
      omega

/-! ### Parameter sections -/

theorem jobParam_singleton (fn : UInt8) (item : JobItem) : jobParam fn [item] = [fn, 1] ++ item.bytes := by
  simp [jobParam]

theorem varSpecs_eq_ok {param : Bytes} {left i off last : Nat} {specs : List VarSpec} (hoff : off ≤ param.length) :
    varSpecs param left i off = .ok (specs, last) ↔
      ∃ items : List JobItem, items.length = left ∧ items.map JobItem.spec = specs ∧
        StandsAt param off (items.flatMap JobItem.bytes) ∧ last = off + (items.flatMap JobItem.bytes).length := by
  induction left generalizing i off last specs with
  | zero =>
    constructor
    · intro h
      cases h
      exact ⟨[], rfl, rfl, standsAt_nil hoff, rfl⟩
    · rintro ⟨items, hlen, rfl, -, rfl⟩
      obtain rfl := List.eq_nil_of_length_eq_zero hlen
      rfl
  | succ left ih =>
    unfold varSpecs
    constructor
    · intro h
      obtain ⟨⟨spec, stop⟩, hspec, h⟩ := Outcome.bind_eq_ok.mp h
      obtain ⟨⟨rest, last'⟩, hrest, h⟩ := Outcome.bind_eq_ok.mp h
      cases h
      obtain ⟨item, rfl, hat, rfl⟩ := parseVarSpec_eq_ok.mp hspec
      obtain ⟨items, rfl, rfl, hats, rfl⟩ := (ih hat.le).mp hrest
      refine ⟨item :: items, rfl, rfl, ?_, by simp [Nat.add_assoc]⟩
      rw [List.flatMap_cons, standsAt_append]
      exact ⟨hat, hats⟩
    · rintro ⟨items, hlen, rfl, hat, rfl⟩
      obtain ⟨item, items, rfl⟩ := List.exists_cons_of_length_eq_add_one hlen
      rw [List.flatMap_cons, standsAt_append] at hat
      have hspec : parseVarSpec param i off = .ok (item.spec, off + item.bytes.length) :=
        parseVarSpec_eq_ok.mpr ⟨item, rfl, hat.1, rfl⟩
      have hrest : varSpecs param left (i + 1) (off + item.bytes.length) = .ok (items.map JobItem.spec, _) :=
        (ih hat.1.le).mpr ⟨items, Nat.succ.inj hlen, rfl, hat.2, rfl⟩
      rw [hspec, Outcome.ok_bind]
      dsimp only
      rw [hrest]
      simp [Nat.add_assoc]

/-- A parameter section is accepted if and only if it is the serialisation of 1 to 255 items. -/
theorem parseVarSpecs_eq_ok {param : Bytes} {fn : UInt8} {specs : List VarSpec} :
    parseVarSpecs param fn = .ok specs ↔
      ∃ items : List JobItem, 0 < items.length ∧ items.length ≤ 255 ∧ param = jobParam fn items ∧
        specs = items.map JobItem.spec := by
  unfold parseVarSpecs
  match param with
  | [] | [_] => simp [jobParam]
  | f :: n :: rest =>
    rw [if_neg (by simp)]
    simp only [index_zero, index_succ, Outcome.ok_bind]
    have hn := n.toNat_lt
    constructor
    · intro h
      split at h
      · cases h
      rename_i hfn
      rw [not_not] at hfn
      subst hfn
      split at h
      · cases h
      obtain ⟨⟨specs', last⟩, hspecs, h⟩ := Outcome.bind_eq_ok.mp h
      obtain ⟨items, hlen, rfl, hat, rfl⟩ := (varSpecs_eq_ok (by simp)).mp hspecs
      dsimp only at h
      split at h
      · cases h
      rename_i hlast
      rw [not_not] at hlast
      cases h
      obtain rfl := (standsAt_append_end [f, n]).mp ⟨hat, hlast⟩
      refine ⟨items, by omega, by omega, ?_, rfl⟩
      rw [jobParam, (uint8_eq_ofNat (by omega)).mpr hlen.symm]
      rfl
    · rintro ⟨items, hpos, hle, hparam, rfl⟩
      obtain ⟨rfl, hn', rfl⟩ : f = fn ∧ n = UInt8.ofNat items.length ∧ rest = items.flatMap JobItem.bytes := by
        simpa [jobParam] using hparam
      have hcount : items.length = n.toNat := ((uint8_eq_ofNat (by omega)).mp hn').symm
      have hat := (standsAt_append_end [f, n]).mpr (Eq.refl (items.flatMap JobItem.bytes))
      have hspecs : varSpecs (f :: n :: items.flatMap JobItem.bytes) n.toNat 0 2 = .ok (items.map JobItem.spec, _) :=
        (varSpecs_eq_ok (by simp)).mpr ⟨items, hcount, rfl, hat.1, rfl⟩
      rw [if_neg (not_not.mpr rfl), if_neg (by omega), hspecs, Outcome.ok_bind]
      dsimp only
      rw [if_neg (by rw [List.length_cons, List.length_cons]; omega)]
      rfl

end S7Comm
