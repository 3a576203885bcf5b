import S7Comm.Wire.Jobs

/-! The decoders of the jobs stay in bounds on every input, and what they accept is laid out as they say. -/

namespace S7Comm
open Go

theorem parseSetupCommRequest_ne_panic (param : Bytes) : parseSetupCommRequest param ≠ .panic := by
  unfold parseSetupCommRequest
  split
  · simp
  · rename_i h
    rw [indexAt_of_lt (by omega), Outcome.ok_bind]
    split
    · simp
    · rw [wordAt_of_le (by omega), wordAt_of_le (by omega), wordAt_of_le (by omega)]
      simp

/-- A granted size is a 16-bit value. -/
theorem parseSetupCommRequest_pduSize_le {param : Bytes} {req : SetupCommRequest}
    (h : parseSetupCommRequest param = .ok req) : req.pduSize ≤ 65535 := by
  unfold parseSetupCommRequest at h
  split at h
  · cases h
  · obtain ⟨fn, -, h⟩ := Outcome.bind_eq_ok.mp h
    split at h
    · cases h
    · obtain ⟨calling, -, h⟩ := Outcome.bind_eq_ok.mp h
      obtain ⟨called, -, h⟩ := Outcome.bind_eq_ok.mp h
      obtain ⟨size, -, h⟩ := Outcome.bind_eq_ok.mp h
      cases h
      have := size.toNat_lt
      simp only
      omega

/-! ### DBREAD items -/

theorem dbReadAreas_ok (b : Bytes) (left i : Nat) (h : 4 + (i + left) * dbReadAreaSize ≤ b.length) :
    ∃ areas, dbReadAreas b left i = .ok areas ∧ areas.length = left := by
  induction left generalizing i with
  | zero => exact ⟨[], rfl, rfl⟩
  | succ left ih =>
    obtain ⟨areas, hareas, hlen⟩ := ih (i + 1) (by rwa [Nat.add_assoc i 1, Nat.add_comm 1])
    have hr : 5 ≤ (b.drop (4 + i * dbReadAreaSize)).length := by
      simp only [dbReadAreaSize, List.length_drop] at h ⊢
      omega
    have hslice : (sliceOf b (4 + i * dbReadAreaSize) b.length) = .ok (b.drop (4 + i * dbReadAreaSize)) := by
      rw [sliceOf_of_le (by rw [List.length_drop] at hr; omega) (Nat.le_refl _)]
      simp
    unfold dbReadAreas
    rw [hslice, Outcome.ok_bind, indexAt_of_lt (by omega), wordAt_of_le (by omega), wordAt_of_le (by omega), hareas]
    exact ⟨_, rfl, by simp [hlen]⟩

theorem parseDBRead_ne_panic (b : Bytes) : parseDBRead b ≠ .panic := by
  unfold parseDBRead
  split
  · simp
  · rename_i h
    rw [indexAt_of_lt (by omega), Outcome.ok_bind]
    dsimp only
    split
    · simp
    · rename_i hn
      obtain ⟨areas, hareas, -⟩ := dbReadAreas_ok b b[3].toNat 0 (by
        rw [Nat.zero_add]
        omega)
      simp [hareas]

/-! ### Item specifications -/

/-- What an accepted item at `off` of a parameter section is: it ends at `stop`, where its length byte
    says, and the ranges of a DBREAD item decode. -/
structure SpecAt (param : Bytes) (off : Nat) (spec : VarSpec) (stop : Nat) : Prop where
  header : off + 2 ≤ param.length
  stop_eq : ∀ len, param[off + 1]? = some len → stop = off + 2 + len.toNat
  stop_le : stop ≤ param.length
  ranges : spec.syntaxID = syntaxIDDBRead → ∃ areas, parseDBRead ((param.drop off).take (stop - off)) = .ok areas

theorem SpecAt.lt {param : Bytes} {off stop : Nat} {spec : VarSpec} (h : SpecAt param off spec stop) :
    off + 2 ≤ stop := by
  have hlen : off + 1 < param.length := by have := h.header; omega
  have := h.stop_eq _ (List.getElem?_eq_getElem hlen)
  omega

theorem parseS7Any_ok (b : Bytes) (h : b.length = varSpecSize) :
    ∃ spec, parseS7Any b = .ok spec ∧ spec.syntaxID = syntaxIDS7Any := by
  have h' : b.length = 12 := h
  unfold parseS7Any
  rw [indexAt_of_lt (by omega), wordAt_of_le (by omega), wordAt_of_le (by omega), indexAt_of_lt (by omega),
    indexAt_of_lt (by omega), indexAt_of_lt (by omega), indexAt_of_lt (by omega)]
  exact ⟨_, rfl, rfl⟩

/-- The syntax ID of an item that ends within the parameter section is read. -/
theorem itemSyntaxID_ok {param : Bytes} {off : Nat} {len : UInt8} (h : off + 2 + len.toNat ≤ param.length) :
    ∃ id, itemSyntaxID param off len = .ok id := by
  unfold itemSyntaxID
  split
  · rename_i hlen
    have hpos : 1 ≤ len.toNat := UInt8.le_iff_toNat_le.mp hlen
    exact ⟨_, indexAt_of_lt (by omega)⟩
  · exact ⟨0, rfl⟩

/-- Item `i` is decoded or refused, never out of range; a decoded item is as `SpecAt` says. -/
theorem parseVarSpec_spec (param : Bytes) (i off : Nat) :
    (∃ e, parseVarSpec param i off = .fail e) ∨
      ∃ spec stop, parseVarSpec param i off = .ok (spec, stop) ∧ SpecAt param off spec stop := by
  unfold parseVarSpec
  by_cases h₁ : off + 2 > param.length
  · rw [if_pos h₁]
    exact .inl ⟨_, rfl⟩
  rw [if_neg h₁, indexAt_of_lt (by omega), Outcome.ok_bind]
  dsimp only
  split
  · exact .inl ⟨_, rfl⟩
  rw [indexAt_of_lt (by omega), Outcome.ok_bind]
  by_cases h₂ : off + 2 + param[off + 1].toNat > param.length
  · rw [if_pos h₂]
    exact .inl ⟨_, rfl⟩
  rw [if_neg h₂]
  have hat : ∀ spec : VarSpec, (spec.syntaxID = syntaxIDDBRead → ∃ areas,
      parseDBRead ((param.drop off).take (off + 2 + param[off + 1].toNat - off)) = .ok areas) →
      SpecAt param off spec (off + 2 + param[off + 1].toNat) := fun spec hr =>
    ⟨by omega, fun len hlen => by rw [List.getElem?_eq_getElem (by omega)] at hlen; cases hlen; rfl, by omega, hr⟩
  have hslice : (sliceOf param off (off + 2 + param[off + 1].toNat)) =
      .ok ((param.drop off).take (off + 2 + param[off + 1].toNat - off)) := sliceOf_of_le (by omega) (by omega)
  obtain ⟨id, hid⟩ := itemSyntaxID_ok (Nat.le_of_not_gt h₂)
  rw [hid, Outcome.ok_bind]
  by_cases hany : id = syntaxIDS7Any
  · rw [if_pos hany]
    by_cases hsize : off + 2 + param[off + 1].toNat - off ≠ varSpecSize
    · rw [if_pos hsize]
      exact .inl ⟨_, rfl⟩
    · rw [if_neg hsize, hslice, Outcome.ok_bind]
      obtain ⟨spec, hspec, hs⟩ := parseS7Any_ok ((param.drop off).take (off + 2 + param[off + 1].toNat - off)) (by
        rw [List.length_take, List.length_drop]
        omega)
      refine .inr ⟨spec, _, by rw [hspec]; rfl, hat spec fun h => ?_⟩
      rw [hs] at h
      exact absurd h (by decide)
  · rw [if_neg hany]
    by_cases hdb : id = syntaxIDDBRead
    · rw [if_pos hdb, hslice, Outcome.ok_bind]
      cases hp : parseDBRead ((param.drop off).take (off + 2 + param[off + 1].toNat - off)) with
      | ok areas => exact .inr ⟨_, _, rfl, hat _ fun _ => ⟨areas, hp⟩⟩
      | fail e => exact .inl ⟨_, rfl⟩
      | panic => exact absurd hp (parseDBRead_ne_panic _)
    · rw [if_neg hdb]
      exact .inr ⟨_, _, rfl, hat _ fun h => absurd h hdb⟩

/-- The items of a parameter section, laid out one after the other from `off` to `last`. -/
inductive SpecsAt (param : Bytes) : (off : Nat) → List VarSpec → (last : Nat) → Prop
  | nil (off : Nat) : SpecsAt param off [] off
  | cons {off stop last : Nat} {spec : VarSpec} {specs : List VarSpec} (head : SpecAt param off spec stop)
      (tail : SpecsAt param stop specs last) : SpecsAt param off (spec :: specs) last

theorem varSpecs_spec (param : Bytes) (left i off : Nat) :
    (∃ e, varSpecs param left i off = .fail e) ∨
      ∃ specs last, varSpecs param left i off = .ok (specs, last) ∧ specs.length = left ∧ SpecsAt param off specs last := by
  induction left generalizing i off with
  | zero => exact .inr ⟨[], off, rfl, rfl, .nil off⟩
  | succ left ih =>
    unfold varSpecs
    rcases parseVarSpec_spec param i off with ⟨e, he⟩ | ⟨spec, stop, hspec, hat⟩
    · exact .inl ⟨e, by rw [he]; rfl⟩
    · rw [hspec, Outcome.ok_bind]
      dsimp only
      rcases ih (i + 1) stop with ⟨e, he⟩ | ⟨specs, last, hspecs, hlen, hats⟩
      · exact .inl ⟨e, by rw [he]; rfl⟩
      · exact .inr ⟨spec :: specs, last, by rw [hspecs]; rfl, by simp [hlen], .cons hat hats⟩

/-- A parameter section is refused, or it holds 1 to 255 items laid out from byte 2 to its end. -/
theorem parseVarSpecs_spec (param : Bytes) (fn : UInt8) :
    (∃ e, parseVarSpecs param fn = .fail e) ∨
      ∃ specs, parseVarSpecs param fn = .ok specs ∧ 0 < specs.length ∧ specs.length ≤ 255 ∧
        param[0]? = some fn ∧ SpecsAt param 2 specs param.length := by
  unfold parseVarSpecs
  by_cases h : param.length < 2
  · rw [if_pos h]
    exact .inl ⟨_, rfl⟩
  rw [if_neg h, indexAt_of_lt (by omega), Outcome.ok_bind]
  dsimp only
  by_cases hfn : param[0] ≠ fn
  · rw [if_pos hfn]
    exact .inl ⟨_, rfl⟩
  rw [if_neg hfn, indexAt_of_lt (by omega), Outcome.ok_bind]
  by_cases hn : param[1].toNat = 0
  · rw [if_pos hn]
    exact .inl ⟨_, rfl⟩
  rw [if_neg hn]
  rcases varSpecs_spec param param[1].toNat 0 2 with ⟨e, he⟩ | ⟨specs, last, hspecs, hlen, hats⟩
  · exact .inl ⟨e, by rw [he]; rfl⟩
  · rw [hspecs, Outcome.ok_bind]
    dsimp only
    by_cases hlast : last ≠ param.length
    · rw [if_pos hlast]
      exact .inl ⟨_, rfl⟩
    · rw [if_neg hlast]
      rw [not_not] at hlast hfn
      have := param[1].toNat_lt
      refine .inr ⟨specs, rfl, by omega, by omega, ?_, hlast ▸ hats⟩
      rw [List.getElem?_eq_getElem (by omega), hfn]

theorem parseVarSpecs_ne_panic (param : Bytes) (fn : UInt8) : parseVarSpecs param fn ≠ .panic := by
  rcases parseVarSpecs_spec param fn with ⟨e, he⟩ | ⟨specs, hs, -⟩ <;> simp_all

theorem parseVarSpecs_length {param : Bytes} {fn : UInt8} {specs : List VarSpec}
    (h : parseVarSpecs param fn = .ok specs) : 0 < specs.length ∧ specs.length ≤ 255 ∧ param[0]? = some fn := by
  rcases parseVarSpecs_spec param fn with ⟨e, he⟩ | ⟨specs', hs, hpos, hle, hfn, -⟩
  · rw [he] at h
    cases h
  · rw [hs] at h
    cases h
    exact ⟨hpos, hle, hfn⟩

/-- The second walk over a parameter section finds the ranges of every DBREAD item. -/
theorem dbReadRanges_spec {param : Bytes} {off last : Nat} {specs : List VarSpec} (h : SpecsAt param off specs last) :
    ∃ ranges, dbReadRanges param specs off = .ok ranges ∧ ranges.length = specs.length ∧
      ∀ p ∈ specs.zip ranges, (p.1.syntaxID = syntaxIDDBRead ↔ p.2.isSome) := by
  induction h with
  | nil off => exact ⟨[], rfl, rfl, by simp⟩
  | @cons off stop last spec specs head _ ih =>
    obtain ⟨ranges, hranges, hlen, hsome⟩ := ih
    have hoff : off + 1 < param.length := by have := head.header; omega
    have hstop : off + 2 + param[off + 1].toNat = stop := (head.stop_eq _ (List.getElem?_eq_getElem hoff)).symm
    unfold dbReadRanges itemRanges
    rw [indexAt_of_lt hoff, Outcome.ok_bind]
    dsimp only
    rw [hstop]
    by_cases hdb : spec.syntaxID = syntaxIDDBRead
    · obtain ⟨areas, hareas⟩ := head.ranges hdb
      rw [if_pos hdb, sliceOf_of_le (by have := head.lt; omega) head.stop_le, Outcome.ok_bind, hareas]
      refine ⟨some areas :: ranges, by simp [hranges], by simp [hlen], ?_⟩
      simpa [hdb] using hsome
    · rw [if_neg hdb]
      refine ⟨none :: ranges, by simp [hranges], by simp [hlen], ?_⟩
      simpa [hdb] using hsome

/-- An accepted Read Var job has one entry of ranges per item, and ranges exactly for the DBREAD items. -/
theorem parseReadVarDBRead_spec {param : Bytes} {specs : List VarSpec} (h : parseReadVarRequest param = .ok specs) :
    ∃ ranges, parseReadVarDBRead param = .ok ranges ∧ ranges.length = specs.length ∧
      ∀ p ∈ specs.zip ranges, (p.1.syntaxID = syntaxIDDBRead ↔ p.2.isSome) := by
  unfold parseReadVarRequest at h
  rcases parseVarSpecs_spec param funcReadVar with ⟨e, he⟩ | ⟨specs', hs, -, -, -, hat⟩
  · rw [he] at h
    cases h
  · rw [hs] at h
    cases h
    unfold parseReadVarDBRead
    rw [hs]
    exact dbReadRanges_spec hat

/-! ### Write Var data -/

theorem itemDataBytes_ne_panic (i : Nat) (transport : UInt8) (raw : UInt16) : itemDataBytes i transport raw ≠ .panic := by
  unfold itemDataBytes writeDataBytes
  split_ifs <;> simp

/-- What the item loop has read when it accepts a section: the header and the payload of its first item, and the
    items after it. -/
theorem writeDataItems_succ {data : Bytes} {left i off last : Nat} {items : List WriteVarData}
    (h : writeDataItems data (left + 1) i off = .ok (items, last)) :
    ∃ code transport raw n payload rest, indexAt data off = .ok code ∧ indexAt data (off + 1) = .ok transport ∧
      wordAt data (off + 2) = .ok raw ∧ itemDataBytes i transport raw = .ok n ∧
      sliceOf data (off + 4) (off + 4 + n) = .ok payload ∧
      writeDataItems data left (i + 1) (if n % 2 ≠ 0 ∧ left ≠ 0 then off + 4 + n + 1 else off + 4 + n) =
        .ok (rest, last) ∧
      items = ⟨code, transport, raw, payload⟩ :: rest := by
  unfold writeDataItems at h
  split at h
  · cases h
  obtain ⟨code, hcode, h⟩ := Outcome.bind_eq_ok.mp h
  obtain ⟨transport, htransport, h⟩ := Outcome.bind_eq_ok.mp h
  obtain ⟨raw, hraw, h⟩ := Outcome.bind_eq_ok.mp h
  obtain ⟨n, hn, h⟩ := Outcome.bind_eq_ok.mp h
  dsimp only at h
  split at h
  · cases h
  obtain ⟨payload, hpayload, h⟩ := Outcome.bind_eq_ok.mp h
  obtain ⟨⟨rest, last'⟩, hrest, h⟩ := Outcome.bind_eq_ok.mp h
  cases h
  exact ⟨code, transport, raw, n, payload, rest, hcode, htransport, hraw, hn, hpayload, hrest, rfl⟩

/-- Each data item is decoded or the section is refused, never out of range. -/
theorem writeDataItems_spec (data : Bytes) (left i off : Nat) :
    (∃ e, writeDataItems data left i off = .fail e) ∨
      ∃ items last, writeDataItems data left i off = .ok (items, last) ∧ items.length = left := by
  induction left generalizing i off with
  | zero => exact .inr ⟨[], off, rfl, rfl⟩
  | succ left ih =>
    unfold writeDataItems
    by_cases h₁ : off + 4 > data.length
    · rw [if_pos h₁]
      exact .inl ⟨_, rfl⟩
    rw [if_neg h₁, indexAt_of_lt (by omega), indexAt_of_lt (by omega), wordAt_of_le (by omega)]
    simp only [Outcome.ok_bind]
    cases hn : itemDataBytes i data[off + 1] (be16 (data.getD (off + 2) 0) (data.getD (off + 2 + 1) 0)) with
    | panic => exact absurd hn (itemDataBytes_ne_panic _ _ _)
    | fail e => exact .inl ⟨e, rfl⟩
    | ok n =>
      rw [Outcome.ok_bind]
      by_cases h₂ : off + 4 + n > data.length
      · rw [if_pos h₂]
        exact .inl ⟨_, rfl⟩
      rw [if_neg h₂, sliceOf_of_le (by omega) (by omega), Outcome.ok_bind]
      rcases ih (i + 1) (if n % 2 ≠ 0 ∧ left ≠ 0 then off + 4 + n + 1 else off + 4 + n) with
        ⟨e, he⟩ | ⟨items, last, hitems, hlen⟩
      · exact .inl ⟨e, by rw [he]; rfl⟩
      · exact .inr ⟨_, last, by rw [hitems]; rfl, by simp [hlen]⟩

/-- A Write Var job is refused, or it has as many data items as specifications, 1 to 255. -/
theorem parseWriteVarRequest_spec (param data : Bytes) :
    (∃ e, parseWriteVarRequest param data = .fail e) ∨
      ∃ specs items, parseWriteVarRequest param data = .ok (specs, items) ∧ items.length = specs.length ∧
        0 < specs.length ∧ specs.length ≤ 255 := by
  unfold parseWriteVarRequest
  rcases parseVarSpecs_spec param funcWriteVar with ⟨e, he⟩ | ⟨specs, hs, hpos, hle, -⟩
  · exact .inl ⟨e, by rw [he]; rfl⟩
  rw [hs, Outcome.ok_bind]
  rcases writeDataItems_spec data specs.length 0 0 with ⟨e, he⟩ | ⟨items, last, hitems, hlen⟩
  · exact .inl ⟨e, by rw [he]; rfl⟩
  rw [hitems, Outcome.ok_bind]
  dsimp only
  split
  · exact .inl ⟨_, rfl⟩
  · exact .inr ⟨specs, items, rfl, hlen, hpos, hle⟩

theorem parseWriteVarRequest_length {param data : Bytes} {specs : List VarSpec} {items : List WriteVarData}
    (h : parseWriteVarRequest param data = .ok (specs, items)) :
    items.length = specs.length ∧ 0 < specs.length ∧ specs.length ≤ 255 := by
  rcases parseWriteVarRequest_spec param data with ⟨e, he⟩ | ⟨specs', items', hok, hlen⟩
  · rw [he] at h
    cases h
  · rw [hok] at h
    cases h
    exact hlen

end S7Comm
