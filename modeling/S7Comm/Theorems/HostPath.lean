import S7Comm.Theorems.MemoryRuns
import S7Comm.Theorems.ReadVar

/-! The two paths to the memory. A client addresses bytes by an item that the session resolves, the host by the span
    that `Server.Read` and `Server.Write` take; on items of whole elements both find the same bytes, and refuse
    for the same reason. -/

namespace S7Comm
open Go

/-- An S7ANY item of whole elements: at least one element of a transport size that the server takes, that is not BIT
    and that suits the area. -/
structure WholeElements (spec : VarSpec) : Prop where
  syntax_eq : spec.syntaxID = syntaxIDS7Any
  count_pos : 1 ≤ spec.count.toNat
  taken : elementSize spec.transportSize ≠ 0
  not_bit : spec.transportSize ≠ transportSizeBit
  suits : (Area.timerOrCounter spec.area = true ∧ spec.transportSize = spec.area) ∨
    (Area.timerOrCounter spec.area = false ∧ spec.transportSize ≠ transportTimer ∧
      spec.transportSize ≠ transportCounter ∧ spec.startBit.toNat % 8 = 0)

/-! ### Both paths, case by case -/

theorem locate_wholeElements {spec : VarSpec} (h : WholeElements spec) (len : Nat) :
    (len < spec.byteStart + spec.byteCount ∧ locate spec len = .error retCodeAddressFault) ∨
      (spec.byteStart + spec.byteCount ≤ len ∧
        ∃ bit, locate spec len = .ok ⟨spec.byteStart, bit, spec.byteCount⟩) := by
  obtain ⟨-, hcount, htaken, hbit, hsuits⟩ := h
  have hsize : spec.byteCount ≠ 0 := Nat.mul_ne_zero htaken (by omega)
  have hbit' : (spec.transportSize == transportSizeBit) = false := by simpa using hbit
  unfold locate
  dsimp only
  rw [if_neg htaken, show elementSize spec.transportSize * spec.count.toNat = spec.byteCount from rfl, hbit']
  rcases hsuits with ⟨harea, hsame⟩ | ⟨harea, htimer, hcounter, haligned⟩
  · have htc : (spec.transportSize == transportTimer || spec.transportSize == transportCounter) = true := by
      rw [hsame]
      simpa [Area.timerOrCounter, transportTimer, transportCounter, areaTimer, areaCounter, or_comm] using harea
    have hstart : spec.byteStart = 2 * spec.startBit.toNat := by simp [VarSpec.byteStart, harea]
    rw [htc, if_neg (by simp [harea, hsame]), if_neg (by simp [hsize]), if_neg (by simp), hstart]
    simp only [↓reduceIte]
    by_cases hfit : 2 * spec.startBit.toNat + spec.byteCount > len
    · exact .inl ⟨hfit, if_pos hfit⟩
    · exact .inr ⟨Nat.not_lt.mp hfit, _, if_neg hfit⟩
  · have htc : (spec.transportSize == transportTimer || spec.transportSize == transportCounter) = false := by
      simp [htimer, hcounter]
    have hstart : spec.byteStart = spec.startBit.toNat / 8 := by simp [VarSpec.byteStart, harea]
    rw [htc, if_neg (by simp [harea]), if_neg (by simp [hsize]), if_neg (by simp [haligned]), hstart]
    simp only [Bool.false_eq_true, ↓reduceIte]
    by_cases hfit : spec.startBit.toNat / 8 + spec.byteCount > len
    · exact .inl ⟨hfit, if_pos hfit⟩
    · exact .inr ⟨Nat.not_lt.mp hfit, _, if_neg hfit⟩

theorem keyOf_fail {area : Area} {db : Int} (h : ∀ key, keyOf area db ≠ .ok key) :
    ∃ detail, keyOf area db = .fail (Sentinel.unknownArea.wrapped detail) := by
  unfold keyOf at h ⊢
  split_ifs at h ⊢
  · exact ⟨_, rfl⟩
  · exact absurd rfl (h _)
  · exact ⟨_, rfl⟩
  · exact absurd rfl (h _)

/-- What the two paths find for an item: no region, a region that the item does not fit, or its bytes. -/
inductive Found (mem : Memory) (spec : VarSpec) : Except UInt8 Target → Res (AreaKey × Region) → Prop
  | unknown (detail : String) :
      Found mem spec (.error retCodeNotAvailable) (.fail (Sentinel.unknownArea.wrapped detail))
  | outside (detail : String) :
      Found mem spec (.error retCodeAddressFault) (.fail (Sentinel.spanOutOfRange.wrapped detail))
  | inside {t : Target} (hreg : mem.regions spec.key = some t.reg)
      (hfits : spec.byteStart + spec.byteCount ≤ t.reg.data.length) :
      Found mem spec (.ok t) (.ok (spec.key, t.reg))

theorem found_wholeElements (mem : Memory) {spec : VarSpec} (h : WholeElements spec) :
    Found mem spec (resolve mem spec)
      (mem.span spec.area spec.dbNumber.toNat spec.byteStart spec.byteCount) := by
  unfold resolve Memory.span
  rw [if_neg (not_not.mpr h.syntax_eq)]
  by_cases hkey : ∃ key, keyOf spec.area spec.dbNumber.toNat = .ok key
  · obtain ⟨key, hkey⟩ := hkey
    obtain rfl := keyOf_spec hkey
    rw [hkey, Outcome.ok_bind]
    dsimp only
    cases hreg : mem.regions spec.key with
    | none => exact .unknown _
    | some reg =>
      dsimp only
      rcases locate_wholeElements h reg.data.length with ⟨hfit, hloc⟩ | ⟨hfit, bit, hloc⟩
      · rw [hloc, if_pos (by omega)]
        exact .outside _
      · rw [hloc, if_neg (by omega)]
        exact .inside hreg hfit
  · obtain ⟨detail, hfail⟩ := keyOf_fail (not_exists.mp hkey)
    rw [hfail]
    exact .unknown detail

/-! ### Calls of the host -/

section Host
variable {mem : Memory} {area : Area} {db : Int}

theorem read_of_span_fail {start size : Int} {e : GoError} (h : mem.span area db start size = .fail e) :
    mem.read area db start size = .fail e := by
  unfold Memory.read
  rw [h]
  rfl

theorem read_of_span {start size : Nat} {key : AreaKey} {reg : Region}
    (h : mem.span area db start size = .ok (key, reg)) (hfits : start + size ≤ reg.data.length) :
    mem.read area db start size = .ok ((reg.data.drop start).take size) := by
  unfold Memory.read
  rw [h, Outcome.ok_bind]
  dsimp only
  rw [show ((start : Int) + size).toNat = start + size from by omega, Int.toNat_natCast,
    sliceOf_of_le (Nat.le_add_right _ _) hfits, Nat.add_sub_cancel_left]

theorem write_of_span_fail {start : Int} {data : Bytes} {e : GoError}
    (h : mem.span area db start data.length = .fail e) : Memory.write area db start data mem = (.fail e, mem) := by
  unfold Memory.write
  rw [Eff.bind_ok (Eff.get_apply mem), h]
  exact Eff.bind_fail (Eff.lift_apply _ _)

theorem write_of_span {start : Nat} {data : Bytes} {key : AreaKey} {reg : Region}
    (h : mem.span area db start data.length = .ok (key, reg)) (hfits : start + data.length ≤ reg.data.length) :
    Memory.write area db start data mem =
      (.ok (), mem.set key { reg with data := overwrite reg.data start data }) := by
  unfold Memory.write
  rw [Eff.bind_ok (Eff.get_apply mem), h, Eff.bind_ok (Eff.lift_apply _ _)]
  dsimp only
  rw [Int.toNat_natCast, sliceOf_of_le (by omega) (Nat.le_refl _)]
  rfl

end Host

/-! ### Agreement -/

/-- A write item of whole elements stores its payload where the host would, or is refused as the host is. -/
theorem writeItem_host (mem : Memory) {spec : VarSpec} (h : WholeElements spec) {item : WriteVarData}
    (hlen : item.data.length = spec.byteCount) (hplain : Area.timerOrCounter spec.area = false)
    (hwritable : ∀ reg, mem.regions spec.key = some reg → reg.readOnly = false) :
    (writeItem spec item mem).2 = (Memory.write spec.area spec.dbNumber.toNat spec.byteStart item.data mem).2 := by
  have hfound := found_wholeElements mem h
  rw [writeItem_eq]
  cases hres : resolve mem spec with
  | error code =>
    rw [hres] at hfound
    have hcode := resolve_eq_writeCode item.data.length hres
    rw [hcode, if_neg (resolve_error_ne hres)]
    generalize hspan : mem.span spec.area spec.dbNumber.toNat spec.byteStart spec.byteCount = host at hfound
    rw [← hlen] at hspan
    cases hfound <;> rw [write_of_span_fail hspan]
  | ok t =>
    rw [hres] at hfound
    generalize hspan : mem.span spec.area spec.dbNumber.toNat spec.byteStart spec.byteCount = host at hfound
    cases hfound with
    | inside hreg hfits =>
      rw [← hlen] at hspan hfits
      have hr := resolve_ok hres
      have hcode : writeCode mem.shape spec item.data.length = retCodeSuccess := by
        rw [writeCode_of_resolved _ hres, if_neg (not_not.mpr (hlen.trans hr.located.size_eq.symm)), if_neg]
        rw [hwritable t.reg hreg, hr.area_eq, hplain]
        simp
      have hbit : spec.isBit = false := by simpa [VarSpec.isBit] using h.not_bit
      rw [hcode, if_pos rfl, write_of_span hspan hfits]
      simp [storeItem, storeBytes, hreg, hbit]

/-- On items of whole elements the session and the host agree, on every memory: they take the same items, refuse an
    unknown area and a span out of range alike, read the same bytes, and leave the same memory behind. -/
theorem client_host_paths_agree (mem : Memory) (spec : VarSpec) (h : WholeElements spec) :
    let host := mem.read spec.area spec.dbNumber.toNat spec.byteStart spec.byteCount
    ((∃ t, resolve mem spec = .ok t) ↔ ∃ bytes, host = .ok bytes) ∧
    (resolve mem spec = .error retCodeNotAvailable ↔ ∃ e, host = .fail e ∧ e.is .unknownArea) ∧
    (resolve mem spec = .error retCodeAddressFault ↔ ∃ e, host = .fail e ∧ e.is .spanOutOfRange) ∧
    (∀ t, resolve mem spec = .ok t → ∃ r, readResult t = .ok r ∧ host = .ok r.data) ∧
    (∀ item : WriteVarData, item.data.length = spec.byteCount → Area.timerOrCounter spec.area = false →
      (∀ reg, mem.regions spec.key = some reg → reg.readOnly = false) →
      (writeItem spec item mem).2 = (Memory.write spec.area spec.dbNumber.toNat spec.byteStart item.data mem).2) := by
  intro host
  have hfound := found_wholeElements mem h
  refine and_assoc.mp (and_assoc.mp (and_assoc.mp ⟨?_, fun item => writeItem_host mem h⟩))
  generalize hres : resolve mem spec = client at hfound
  generalize hspan : mem.span spec.area spec.dbNumber.toNat spec.byteStart spec.byteCount = span at hfound
  cases hfound with
  | unknown detail =>
    rw [show host = _ from read_of_span_fail hspan]
    simp [Sentinel.wrapped, GoError.is, retCodeNotAvailable, retCodeAddressFault]
  | outside detail =>
    rw [show host = _ from read_of_span_fail hspan]
    simp [Sentinel.wrapped, GoError.is, retCodeNotAvailable, retCodeAddressFault]
  | @inside t hreg hfits =>
    obtain ⟨r, hread, -, -, hdata, -⟩ := readResult_spec (resolve_ok hres)
    have hbit : ¬spec.isBit = true := by simpa [VarSpec.isBit] using h.not_bit
    have hbytes : r.data = (t.reg.data.drop spec.byteStart).take spec.byteCount := by
      rw [hdata, addressedBytes, hreg]
      exact if_neg hbit
    rw [show host = _ from read_of_span hspan hfits, ← hbytes]
    simp [hread]

/-- Two words of a data block, from its second byte on. -/
theorem client_host_paths_agree_words :
    let mem := Memory.empty.set { area := areaDB, db := 7 } ⟨[1, 2, 3, 4, 5, 6], false⟩
    let spec : VarSpec := ⟨syntaxIDS7Any, transportSizeWord, 2, 7, areaDB, 8⟩
    (∃ t r, resolve mem spec = .ok t ∧ readResult t = .ok r ∧ r.data = [2, 3, 4, 5] ∧
      mem.read areaDB 7 1 4 = .ok r.data) ∧
    (writeItem spec ⟨0, dataTransportSizeByte, 32, [9, 9, 9, 9]⟩ mem).2 = (Memory.write areaDB 7 1 [9, 9, 9, 9] mem).2 := by
  intro mem spec
  obtain ⟨-, -, -, hread, hwrite⟩ := client_host_paths_agree mem spec
    ⟨rfl, by decide, by decide, by decide, .inr ⟨rfl, by decide, by decide, by decide⟩⟩
  have hstart : spec.byteStart = 1 := by decide
  have hcount : spec.byteCount = 4 := by decide
  rw [hstart] at hread hwrite
  rw [hcount] at hread
  have hkey : mem.regions spec.key = some ⟨[1, 2, 3, 4, 5, 6], false⟩ := Memory.set_regions_self _ _ _
  have hres : resolve mem spec = .ok ⟨⟨1, 0, 4⟩, ⟨areaDB, 7⟩, ⟨[1, 2, 3, 4, 5, 6], false⟩, false, transportSizeWord,
      areaDB⟩ := by decide +kernel
  obtain ⟨r, hr, hhost⟩ := hread _ hres
  refine ⟨⟨_, r, hres, hr, ?_, hhost⟩, hwrite _ rfl rfl ?_⟩
  · have hdata : r = ⟨retCodeSuccess, dataTransportSizeByte, 32, [2, 3, 4, 5]⟩ := by
      have := hr.symm
      cases this
      rfl
    rw [hdata]
  · rintro reg hreg
    rw [hkey] at hreg
    cases hreg
    rfl

end S7Comm
