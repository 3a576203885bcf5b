import S7Comm.Theorems.Answers

/-! Write Var. One item is refused and changes nothing, or stores exactly its payload; since no store changes the
    shape of the memory, the codes of a job are decided before its first item is applied. -/

namespace S7Comm
open Go

/-! ### Storing an item -/

@[simp] theorem length_storeBytes (spec : VarSpec) (payload old : Bytes) :
    (storeBytes spec payload old).length = old.length := by
  unfold storeBytes
  split <;> simp

theorem shape_set {mem : Memory} {key : AreaKey} {reg : Region} {data : Bytes} (h : mem.regions key = some reg)
    (hlen : data.length = reg.data.length) : (mem.set key { reg with data }).shape = mem.shape := by
  funext k
  by_cases hk : k = key
  · subst hk
    simp [Memory.shape, h, hlen]
  · simp [Memory.shape, Memory.set_regions_of_ne hk]

@[simp] theorem shape_storeItem (mem : Memory) (spec : VarSpec) (payload : Bytes) :
    (storeItem mem spec payload).shape = mem.shape := by
  unfold storeItem
  split
  · rfl
  · rename_i reg hreg
    exact shape_set hreg (length_storeBytes _ _ _)

theorem shape_storeItems (mem : Memory) (pairs : List (VarSpec × WriteVarData)) :
    (storeItems mem pairs).shape = mem.shape :=
  List.foldlRecOn pairs _ (motive := fun m => m.shape = mem.shape) rfl fun m hm p _ =>
    (shape_storeItem m p.1 p.2.data).trans hm

/-! ### One item -/

/-- The code of a write follows the lookup of its address: where that fails, its code; else size and access decide. -/
theorem writeCode_cases (mem : Memory) (spec : VarSpec) (n : Nat) :
    (∃ code, resolve mem spec = .error code ∧ writeCode mem.shape spec n = code) ∨
    ∃ t, resolve mem spec = .ok t ∧ writeCode mem.shape spec n =
      if n ≠ t.size then retCodeDataSizeFault
      else if t.reg.readOnly ∨ t.area.timerOrCounter then retCodeAccessFault
      else retCodeSuccess := by
  unfold resolve writeCode
  by_cases hsyn : spec.syntaxID ≠ syntaxIDS7Any
  · rw [if_pos hsyn, if_pos hsyn]
    exact .inl ⟨_, rfl, rfl⟩
  rw [if_neg hsyn, if_neg hsyn]
  cases keyOf spec.area spec.dbNumber.toNat with
  | ok key =>
    dsimp only
    cases hreg : mem.regions key with
    | none => exact .inl ⟨_, rfl, by simp [Memory.shape, hreg]⟩
    | some reg =>
      simp only [Memory.shape, hreg, Option.map_some]
      cases locate spec reg.data.length with
      | error code => exact .inl ⟨code, rfl, rfl⟩
      | ok span => exact .inr ⟨_, rfl, rfl⟩
  | fail e => exact .inl ⟨_, rfl, rfl⟩
  | panic => exact .inl ⟨_, rfl, rfl⟩

theorem resolve_eq_writeCode {mem : Memory} {spec : VarSpec} {code : UInt8} (n : Nat)
    (h : resolve mem spec = .error code) : writeCode mem.shape spec n = code := by
  rcases writeCode_cases mem spec n with ⟨code', hres, hcode⟩ | ⟨t, hres, -⟩
  · cases h.symm.trans hres
    exact hcode
  · cases h.symm.trans hres

theorem writeCode_of_resolved {mem : Memory} {spec : VarSpec} {t : Target} (n : Nat) (h : resolve mem spec = .ok t) :
    writeCode mem.shape spec n =
      if n ≠ t.size then retCodeDataSizeFault
      else if t.reg.readOnly ∨ t.area.timerOrCounter then retCodeAccessFault
      else retCodeSuccess := by
  rcases writeCode_cases mem spec n with ⟨code, hres, -⟩ | ⟨t', hres, hcode⟩
  · cases h.symm.trans hres
  · cases h.symm.trans hres
    exact hcode

/-- What it takes for an item to be stored. -/
structure Accepted (mem : Memory) (spec : VarSpec) (n : Nat) (reg : Region) : Prop where
  syntax_eq : spec.syntaxID = syntaxIDS7Any
  reg_eq : mem.regions spec.key = some reg
  writable : reg.readOnly = false
  plain : Area.timerOrCounter spec.area = false
  size_eq : n = spec.byteCount
  size_pos : 0 < n
  bit_size : spec.isBit → n = 1
  fits : spec.byteStart + n ≤ reg.data.length

theorem accepted_of_writeCode {mem : Memory} {spec : VarSpec} {n : Nat}
    (h : writeCode mem.shape spec n = retCodeSuccess) : ∃ reg, Accepted mem spec n reg := by
  cases hres : resolve mem spec with
  | error code => exact absurd (resolve_eq_writeCode n hres ▸ h) (resolve_error_ne hres)
  | ok t =>
    obtain ⟨hsyn, -, hreg, hloc, -, -, harea⟩ := resolve_ok hres
    rw [writeCode_of_resolved n hres] at h
    split_ifs at h with hsize hro
    · exact absurd h (by decide)
    · exact absurd h (by decide)
    · rw [not_not] at hsize
      rw [harea] at hro
      have hplain := not_or.mp hro
      exact ⟨t.reg, hsyn, hreg, by simpa using hplain.1, by simpa using hplain.2, hsize.trans hloc.size_eq,
        hsize ▸ hloc.size_pos, fun hbit => hsize.trans (hloc.bit_size hbit),
        by rw [hsize, ← hloc.start_eq]; exact hloc.fits⟩

/-- One item: its code is decided by the shape of the memory, and only success stores it. -/
theorem writeItem_eq (mem : Memory) (spec : VarSpec) (item : WriteVarData) :
    writeItem spec item mem =
      (.ok (writeCode mem.shape spec item.data.length),
        if writeCode mem.shape spec item.data.length = retCodeSuccess then storeItem mem spec item.data else mem) := by
  unfold writeItem
  rw [Eff.bind_ok (Eff.get_apply mem)]
  cases hres : resolve mem spec with
  | error code =>
    rw [resolve_eq_writeCode _ hres, if_neg (resolve_error_ne hres)]
    rfl
  | ok t =>
    have ht := resolve_ok hres
    have hfits := ht.located.fits
    rw [writeCode_of_resolved _ hres]
    dsimp only
    by_cases hsize : item.data.length ≠ t.size
    · rw [if_pos hsize, if_pos hsize]
      rfl
    rw [if_neg hsize, if_neg hsize]
    rw [not_not] at hsize
    by_cases hro : t.reg.readOnly ∨ t.area.timerOrCounter
    · rw [if_pos hro, if_pos hro]
      rfl
    rw [if_neg hro, if_neg hro, if_pos rfl]
    have hstore : storeItem mem spec item.data =
        mem.set t.key { t.reg with data := storeBytes spec item.data t.reg.data } := by
      simp only [storeItem, ht.reg_eq, ht.key_eq]
    rw [hstore, storeBytes, ← ht.isBit_eq]
    by_cases hbit : t.isBit
    · have hspec : spec.isBit = true := ht.isBit_eq ▸ hbit
      have hone := ht.located.bit_size hspec
      have hstart : t.start < t.reg.data.length := by omega
      obtain ⟨b, hb⟩ : ∃ b, item.data = [b] := List.length_eq_one_iff.mp (by omega)
      have hnew := mask_eq_withBit t.reg.data[t.start] b ht.located.bit_lt
      rw [if_pos hbit, if_pos hbit, indexAt_of_lt hstart, hb, ← ht.located.start_eq,
        ← ht.located.bit_eq hspec, List.modify_eq_set_get _ hstart]
      simp only [List.headD_cons, List.get_eq_getElem, ← hnew]
      rfl
    · rw [if_neg hbit, if_neg hbit, sliceOf_of_le (by omega) (Nat.le_refl _), ← ht.located.start_eq]
      rfl

/-! ### A job -/

theorem writeItems_eq (mem : Memory) {specs : List VarSpec} {items : List WriteVarData}
    (h : items.length = specs.length) :
    writeItems specs items mem =
      (.ok (writeCodes mem.shape specs items), storeItems mem (acceptedItems mem.shape specs items)) := by
  induction specs generalizing items mem with
  | nil => rfl
  | cons spec specs ih =>
    cases items with
    | nil => cases h
    | cons item items =>
      -- The shape, and with it every later code, survives the first item.
      have hstep := writeItem_eq mem spec item
      unfold writeItems
      rw [show indexAt (item :: items) 0 = .ok item from rfl, Eff.bind_ok (Eff.lift_apply _ _), Eff.bind_ok hstep]
      have hrest := ih (if writeCode mem.shape spec item.data.length = retCodeSuccess
        then storeItem mem spec item.data else mem) (Nat.succ.inj h : items.length = specs.length)
      have hshape : (if writeCode mem.shape spec item.data.length = retCodeSuccess
          then storeItem mem spec item.data else mem).shape = mem.shape := by
        split <;> simp
      rw [hshape] at hrest
      rw [List.tail_cons, Eff.bind_ok hrest]
      by_cases hok : writeCode mem.shape spec item.data.length = retCodeSuccess
      · simp [writeCodes, acceptedItems, storeItems, hok]
      · simp [writeCodes, acceptedItems, storeItems, hok]

theorem length_writeCodes {shape : Shape} {specs : List VarSpec} {items : List WriteVarData}
    (h : items.length = specs.length) : (writeCodes shape specs items).length = specs.length := by
  simp [writeCodes, h]

/-- A job that parses is answered with its codes, and its accepted items are stored. -/
theorem write_eq (mem : Memory) (ref : UInt16) {param data : Bytes} {specs : List VarSpec}
    {items : List WriteVarData} (h : parseWriteVarRequest param data = .ok (specs, items)) :
    write ref param data mem =
      (.ok (ackData ref 0 0 [funcWriteVar, UInt8.ofNat specs.length] (writeCodes mem.shape specs items)),
        storeItems mem (acceptedItems mem.shape specs items)) := by
  obtain ⟨hlen, -, hle⟩ := parseWriteVarRequest_length h
  have hcodes : (writeCodes mem.shape specs items).length = specs.length := length_writeCodes hlen
  unfold write
  rw [h, Eff.bind_ok (Eff.lift_apply _ _)]
  dsimp only
  rw [Eff.bind_ok (writeItems_eq mem hlen)]
  unfold encodeWriteVarResponse
  rw [hcodes, if_neg (by omega), encodeAckData_eq (by simp) (by omega)]
  rfl

theorem mem_acceptedItems {shape : Shape} {specs : List VarSpec} {items : List WriteVarData} {spec : VarSpec}
    {item : WriteVarData} (h : (spec, item) ∈ acceptedItems shape specs items) :
    writeCode shape spec item.data.length = retCodeSuccess := by
  simpa using (List.mem_filter.mp h).2

/-- A Write Var job as a whole. The answer carries one code per item, in order, and each code is a function of the
    specification, the payload length and the shape of the memory; the items with code 0xFF, each of which fits
    its region, are stored from left to right and nothing else is. -/
theorem write_job_meaning (mem : Memory) (ref : UInt16) {param data : Bytes} {specs : List VarSpec}
    {items : List WriteVarData} (h : parseWriteVarRequest param data = .ok (specs, items)) :
    ∃ out codes, write ref param data mem = (.ok out, storeItems mem (acceptedItems mem.shape specs items)) ∧
      responseSections out ref = .ok ([funcWriteVar, UInt8.ofNat specs.length], codes) ∧
      parseWriteVarResponseCodes [funcWriteVar, UInt8.ofNat specs.length] codes = .ok codes ∧
      items.length = specs.length ∧ codes.length = specs.length ∧
      (∀ (i : Nat) spec item, specs[i]? = some spec → items[i]? = some item →
        codes[i]? = some (writeCode mem.shape spec item.data.length)) ∧
      ∀ spec item, (spec, item) ∈ acceptedItems mem.shape specs items →
        ∃ reg, mem.regions spec.key = some reg ∧ spec.byteStart = spec.startBit.toNat / 8 ∧
          item.data.length = spec.byteCount ∧ (spec.isBit → item.data.length = 1) ∧
          spec.byteStart + item.data.length ≤ reg.data.length := by
  obtain ⟨hlen, hpos, hle⟩ := parseWriteVarRequest_length h
  have hcodes : (writeCodes mem.shape specs items).length = specs.length := length_writeCodes hlen
  refine ⟨_, writeCodes mem.shape specs items, write_eq mem ref h, responseSections_ackData ?_, ?_, hlen, hcodes, ?_, ?_⟩
  · simp only [List.length_cons, List.length_nil]
    omega
  · rw [← hcodes]
    exact parseWriteVarResponseCodes_eq (by omega) (by omega)
  · intro i spec item hspec hitem
    simp [writeCodes, List.getElem?_zipWith, hspec, hitem]
  · intro spec item hmem
    obtain ⟨reg, hacc⟩ := accepted_of_writeCode (mem_acceptedItems hmem)
    exact ⟨reg, hacc.reg_eq, by simp [VarSpec.byteStart, hacc.plain], hacc.size_eq, hacc.bit_size, hacc.fits⟩

/-- Two marker bytes. -/
def markerMemory : Memory := Memory.empty.set { area := areaMerkers } ⟨[0x00, 0x00], false⟩

/-- A job that writes both marker bytes, sets bit 3 of the first one, and writes to a third one, which is not there. -/
def overlapParam : Bytes :=
  [funcWriteVar, 3] ++ putS7Any transportSizeByte 2 0 areaMerkers 0 ++ putS7Any transportSizeBit 1 0 areaMerkers 3 ++
    putS7Any transportSizeByte 1 0 areaMerkers 16

def overlapData : Bytes :=
  [0x00, dataTransportSizeByte, 0x00, 0x10, 0x12, 0x34, 0x00, dataTransportSizeBit, 0x00, 0x01, 0x01, 0x00,
    0x00, dataTransportSizeByte, 0x00, 0x08, 0x56]

/-- The first two items are stored, in their order, and the third one is refused. -/
theorem write_job_meaning_overlap :
    ∃ out mem, write 1 overlapParam overlapData markerMemory = (.ok out, mem) ∧
      responseSections out 1 = .ok ([funcWriteVar, 3], [retCodeSuccess, retCodeSuccess, retCodeAddressFault]) ∧
      mem.regions { area := areaMerkers } = some ⟨[0x1A, 0x34], false⟩ := by
  have hparse : parseWriteVarRequest overlapParam overlapData =
      .ok ([⟨syntaxIDS7Any, transportSizeByte, 2, 0, areaMerkers, 0⟩,
          ⟨syntaxIDS7Any, transportSizeBit, 1, 0, areaMerkers, 3⟩,
          ⟨syntaxIDS7Any, transportSizeByte, 1, 0, areaMerkers, 16⟩],
        [⟨0x00, dataTransportSizeByte, 16, [0x12, 0x34]⟩, ⟨0x00, dataTransportSizeBit, 1, [0x01]⟩,
          ⟨0x00, dataTransportSizeByte, 8, [0x56]⟩]) := by
    decide
  obtain ⟨out, codes, hwrite, hsections, -, -, hlen, hcodes, -⟩ := write_job_meaning markerMemory 1 hparse
  obtain ⟨a, b, c, rfl⟩ := List.length_eq_three.mp hlen
  have ha : a = retCodeSuccess := Option.some.inj (hcodes 0 _ _ rfl rfl)
  have hb : b = retCodeSuccess := Option.some.inj (hcodes 1 _ _ rfl rfl)
  have hc : c = retCodeAddressFault := Option.some.inj (hcodes 2 _ _ rfl rfl)
  subst ha hb hc
  exact ⟨out, _, hwrite, hsections, by decide⟩

theorem write_fail (mem : Memory) (ref : UInt16) {param data : Bytes} {e : GoError}
    (h : parseWriteVarRequest param data = .fail e) : write ref param data mem = (.fail e, mem) := by
  unfold write
  rw [h]
  exact Eff.bind_fail (Eff.lift_apply _ _)

end S7Comm
