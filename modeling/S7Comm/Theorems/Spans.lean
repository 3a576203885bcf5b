import S7Comm.System.Store
import S7Comm.Theorems.LinkBits
import S7Comm.Theorems.MemoryRuns

/-! The store, and what the items of requests do to it. An item of bytes or of one bit is served exactly where the store
    has the span, whatever else the memory holds. -/

namespace S7Comm
open Go

section Spans
variable {mem : Memory} {addr : Address} {start n : Nat} {d : Bytes}

theorem readSpan_eq_some : mem.readSpan addr start n = some d ↔
    Area.timerOrCounter addr.area = false ∧ ∃ key reg, keyOf addr.area addr.dbNumber = .ok key ∧
      mem.regions key = some reg ∧ start + n ≤ reg.data.length ∧ d = (reg.data.drop start).take n := by
  unfold Memory.readSpan
  cases Area.timerOrCounter addr.area with
  | true => simp
  | false =>
    cases hkey : keyOf addr.area addr.dbNumber with
    | ok key =>
      cases hreg : mem.regions key with
      | none => simp [hreg]
      | some reg =>
        by_cases hend : start + n ≤ reg.data.length
        · simp [hreg, hend, eq_comm]
        · simp [hreg, hend]
    | fail e => simp
    | panic => simp

theorem length_readSpan (h : mem.readSpan addr start n = some d) : d.length = n := by
  obtain ⟨-, key, reg, -, -, hend, rfl⟩ := readSpan_eq_some.mp h
  rw [List.length_take, List.length_drop]
  omega

/-- A span is found when its parts are, and then it is their sequence. -/
theorem readSpan_add (mem : Memory) (addr : Address) (start n m : Nat) :
    mem.readSpan addr start (n + m) =
      (mem.readSpan addr start n).bind fun a => (mem.readSpan addr (start + n) m).map (a ++ ·) := by
  ext d
  rw [readSpan_eq_some, Option.bind_eq_some_iff]
  constructor
  · rintro ⟨hplain, key, reg, hkey, hreg, hend, rfl⟩
    refine ⟨_, readSpan_eq_some.mpr ⟨hplain, key, reg, hkey, hreg, by omega, rfl⟩, ?_⟩
    rw [Option.map_eq_some_iff]
    refine ⟨_, readSpan_eq_some.mpr ⟨hplain, key, reg, hkey, hreg, by omega, rfl⟩, ?_⟩
    rw [List.take_add, List.drop_drop]
  · rintro ⟨a, ha, hd⟩
    obtain ⟨b, hb, rfl⟩ := Option.map_eq_some_iff.mp hd
    obtain ⟨hplain, key, reg, hkey, hreg, -, rfl⟩ := readSpan_eq_some.mp ha
    obtain ⟨-, key', reg', hkey', hreg', hend, rfl⟩ := readSpan_eq_some.mp hb
    rw [hkey] at hkey'
    cases hkey'
    rw [hreg] at hreg'
    cases hreg'
    exact ⟨hplain, key, reg, hkey, hreg, by omega, by rw [List.take_add, List.drop_drop]⟩

theorem isSome_readSpan_left {m : Nat} (h : (mem.readSpan addr start (n + m)).isSome) :
    (mem.readSpan addr start n).isSome := by
  rw [readSpan_add] at h
  exact Option.isSome_of_isSome_bind h

theorem isSome_readSpan_right {m : Nat} (h : (mem.readSpan addr start (n + m)).isSome) :
    (mem.readSpan addr (start + n) m).isSome := by
  rw [readSpan_add, Option.isSome_bind] at h
  cases ha : mem.readSpan addr start n with
  | none => simp [ha] at h
  | some a => simpa [ha] using h

/-- Regions are not taken away, so a span that was found once is found again. -/
theorem readSpan_kept {mem' : Memory} (hkept : Kept mem.shape mem'.shape)
    (h : (mem.readSpan addr start n).isSome) : (mem'.readSpan addr start n).isSome := by
  obtain ⟨d, hd⟩ := Option.isSome_iff_exists.mp h
  obtain ⟨hplain, key, reg, hkey, hreg, hend, -⟩ := readSpan_eq_some.mp hd
  have hshape : mem'.shape key = some (reg.data.length, reg.readOnly) := hkept key _ (by simp [Memory.shape, hreg])
  obtain ⟨reg', hreg', hsame⟩ := Option.map_eq_some_iff.mp hshape
  obtain ⟨hlen, -⟩ := Prod.mk.inj hsame
  exact Option.isSome_iff_exists.mpr
    ⟨_, readSpan_eq_some.mpr ⟨hplain, key, reg', hkey, hreg', by rw [hlen]; exact hend, rfl⟩⟩

/-- The key of an address where the store has a span. -/
theorem readSpan_key (h : mem.readSpan addr start n = some d) : keyOf addr.area addr.dbNumber = .ok addr.key := by
  obtain ⟨-, key, reg, hkey, -, -, -⟩ := readSpan_eq_some.mp h
  rw [hkey]
  unfold keyOf at hkey
  unfold Address.key
  split_ifs at hkey with h₁ h₂ h₃
  · cases hkey
    rw [if_neg h₂]
  · cases hkey
    rw [if_pos (not_not.mp h₂)]

/-- What was stored in a span is what it holds. -/
theorem readSpan_storeAt (h : (mem.readSpan addr start d.length).isSome) :
    (storeAt mem addr.key start d).readSpan addr start d.length = some d := by
  obtain ⟨old, hold⟩ := Option.isSome_iff_exists.mp h
  have hkey := readSpan_key hold
  obtain ⟨hplain, key, reg, hkey', hreg, hend, -⟩ := readSpan_eq_some.mp hold
  rw [hkey] at hkey'
  cases hkey'
  refine readSpan_eq_some.mpr ⟨hplain, addr.key, _, hkey, storeAt_regions_self hreg start d, ?_, ?_⟩
  · rw [length_overwrite]
    exact hend
  · have hlen : (reg.data.take start).length = start := by
      rw [List.length_take]
      omega
    dsimp only
    rw [overwrite_eq hend, List.append_assoc, List.drop_append_of_le_length (by omega), List.drop_of_length_le (by omega),
      List.nil_append, List.take_append_of_le_length (Nat.le_refl _), List.take_length]

/-- No other session and no call of the host takes the region away. -/
theorem Memory.Takes.kept {mem' : Memory} (h : mem.Takes addr n) (hkept : Kept mem.shape mem'.shape) :
    mem'.Takes addr n := by
  obtain ⟨hplain, key, reg, hkey, hreg, hro, hle⟩ := h
  have hshape : mem'.shape key = some (reg.data.length, reg.readOnly) := hkept key _ (by simp [Memory.shape, hreg])
  obtain ⟨reg', hreg', hsame⟩ := Option.map_eq_some_iff.mp hshape
  obtain ⟨hlen, hflag⟩ := Prod.mk.inj hsame
  exact ⟨hplain, key, reg', hkey, hreg', by rw [hflag, hro], by rw [hlen]; exact hle⟩

theorem Memory.Takes.mono {m : Nat} (h : mem.Takes addr n) (hle : m ≤ n) : mem.Takes addr m := by
  obtain ⟨hplain, key, reg, hkey, hreg, hro, hn⟩ := h
  exact ⟨hplain, key, reg, hkey, hreg, hro, Nat.le_trans hle hn⟩

end Spans

/-! ### Checks -/

theorem validateAddress_cases (addr : Address) : validateAddress addr = .ok () ∨ ∃ e, validateAddress addr = .fail e := by
  unfold validateAddress
  split_ifs <;> simp

theorem validateRangeEnd_cases (start n : Int) :
    validateRangeEnd start n = .ok () ∨ ∃ e, validateRangeEnd start n = .fail e := by
  unfold validateRangeEnd
  split_ifs <;> simp

/-! ### Items of bytes -/

/-- An item that is not of timers or counters is taken only in an area of bytes. -/
theorem resolve_plain {mem : Memory} {spec : VarSpec} {t : Target} (h : resolve mem spec = .ok t)
    (htransp : (spec.transportSize == transportTimer || spec.transportSize == transportCounter) = false) :
    Area.timerOrCounter spec.area = false ∧
      ∃ key, keyOf spec.area spec.dbNumber.toNat = .ok key ∧ mem.regions key = some t.reg := by
  have hreg := (resolve_ok h).reg_eq
  unfold resolve at h
  split at h
  · cases h
  cases hkey : keyOf spec.area spec.dbNumber.toNat with
  | fail e => simp [hkey] at h
  | panic => simp [hkey] at h
  | ok key =>
    obtain rfl := keyOf_spec hkey
    simp only [hkey, hreg] at h
    refine ⟨?_, _, rfl, hreg⟩
    unfold locate at h
    dsimp only at h
    rw [htransp] at h
    by_contra hplain
    rw [Bool.not_eq_false] at hplain
    split at h
    · cases h
    · rename_i span hspan
      split at hspan
      · cases hspan
      · rw [if_pos (.inl (by rw [hplain]; decide))] at hspan
        cases hspan

/-- An item that is not taken is answered with a refusal. -/
theorem itemResult_unresolved {mem : Memory} (spec : VarSpec) (hsyn : spec.syntaxID = syntaxIDS7Any)
    (h : ∀ t, resolve mem spec ≠ .ok t) :
    ∃ r, (∀ range, itemResult mem spec range = .ok r) ∧ WellFormed r ∧ r.data = [] ∧ r.returnCode ≠ retCodeSuccess := by
  cases hres : resolve mem spec with
  | ok t => exact absurd hres (h t)
  | error code =>
    have hcode := resolve_error_ne hres
    refine ⟨{ returnCode := code }, fun range => ?_, wellFormed_refused hcode, rfl, hcode⟩
    unfold itemResult
    rw [if_neg (by rw [hsyn]; decide), hres]
    rfl

section Bytes
variable {addr : Address} {db start size : Nat}

/-- A byte item is taken only where the store has the span. -/
theorem readSpan_of_resolve {mem : Memory} {t : Target} (ht : resolve mem (byteSpec addr.area db start size) = .ok t)
    (h : Addressable db start size) (hdb : addr.dbNumber = db) (hpos : 0 < size) :
    (mem.readSpan addr start size).isSome := by
  obtain ⟨hplain, key, hkey, hreg⟩ := resolve_plain ht rfl
  rw [show (byteSpec addr.area db start size).dbNumber.toNat = db from
    uint16_toNat_ofNat (by have := h.db_le; omega)] at hkey
  have hbyte : resolve mem (byteSpec addr.area db start size) = _ := resolve_byteSpec h hpos hplain hkey hreg
  by_cases hend : start + size > t.reg.data.length
  · rw [if_pos hend, ht] at hbyte
    cases hbyte
  · rw [Option.isSome_iff_exists]
    exact ⟨_, readSpan_eq_some.mpr ⟨hplain, key, t.reg, by rw [hdb]; exact hkey, hreg, by omega, rfl⟩⟩

/-- The result of a byte item: the bytes of the span, or a refusal where there is no such span. -/
theorem itemResult_readSpan (mem : Memory) (h : Addressable db start size) (hdb : addr.dbNumber = db) (hpos : 0 < size) :
    ∃ r, (∀ range, itemResult mem (byteSpec addr.area db start size) range = .ok r) ∧ WellFormed r ∧
      r.data.length ≤ size ∧
      (r.returnCode = retCodeSuccess ∧ mem.readSpan addr start size = some r.data ∨
        r.returnCode ≠ retCodeSuccess ∧ mem.readSpan addr start size = none) := by
  cases hspan : mem.readSpan addr start size with
  | some d =>
    obtain ⟨hplain, key, reg, hkey, hreg, hend, rfl⟩ := readSpan_eq_some.mp hspan
    rw [hdb] at hkey
    obtain ⟨r, hr, hwf, hlen, ⟨-, hcode, hdata⟩ | ⟨hlt, -⟩⟩ := itemResult_byteSpec h hpos hplain hkey hreg
    · exact ⟨r, hr, hwf, hlen, .inl ⟨hcode, by rw [hdata]⟩⟩
    · omega
  | none =>
    obtain ⟨r, hr, hwf, hdata, hcode⟩ := itemResult_unresolved (byteSpec addr.area db start size) rfl
      fun t ht => by
        have := readSpan_of_resolve ht h hdb hpos
        rw [hspan] at this
        cases this
    exact ⟨r, hr, hwf, by simp [hdata], .inr ⟨hcode, rfl⟩⟩

/-- The memory takes every span inside a region that can be written. -/
theorem Memory.Takes.writeCode {mem : Memory} (h : mem.Takes addr (start + size)) (haddr : Addressable db start size)
    (hdb : addr.dbNumber = db) (hpos : 0 < size) :
    writeCode mem.shape (byteSpec addr.area db start size) size = retCodeSuccess := by
  obtain ⟨hplain, key, reg, hkey, hreg, hro, hend⟩ := h
  rw [hdb] at hkey
  exact Registered.writeCode ⟨hdb, haddr.db_le, hplain, key, hkey, hreg⟩ hro haddr hpos hend

/-- A byte request stores its bytes or is refused, whatever the memory holds. -/
theorem handle_bytes (cfg : ServerConfig) (s : Session) (ref : UInt16) {chunk : Bytes} (hdb : addr.dbNumber = db)
    (haddr : Addressable db start chunk.length) (hpos : 0 < chunk.length) (hbits : chunk.length * 8 ≤ 65535) :
    ∃ code s', handle cfg (message rosctrJob ref ([funcWriteVar, 1] ++ byteItem addr.area db start chunk.length)
        (writeSection chunk)) s = (.ok (some (ackData ref 0 0 [funcWriteVar, 1] [code]), true), s') ∧
      s'.pduSize = s.pduSize ∧
      (code = retCodeSuccess →
        (s.mem.readSpan addr start chunk.length).isSome ∧ s'.mem = storeAt s.mem addr.key start chunk) ∧
      (code ≠ retCodeSuccess → s'.mem = s.mem ∧ ¬s.mem.Takes addr (start + chunk.length)) := by
  refine ⟨_, _, handle_write cfg ref addr.area haddr hbits, rfl, fun hcode => ?_, fun hcode => ⟨if_neg hcode, ?_⟩⟩
  · cases hres : resolve s.mem (byteSpec addr.area db start chunk.length) with
    | error code => exact absurd (resolve_eq_writeCode chunk.length hres ▸ hcode) (resolve_error_ne hres)
    | ok t =>
      obtain ⟨-, -, -, hstore⟩ := storeItem_byteSpec haddr hcode
      rw [key_byteSpec hdb] at hstore
      exact ⟨readSpan_of_resolve hres haddr hdb hpos, by dsimp only; rw [if_pos hcode, hstore]⟩
  · exact fun htakes => hcode (htakes.writeCode haddr hdb hpos)

end Bytes

/-- An item that the server has refused ends the read. -/
theorem readAnswer_refused (reqLen : Nat) (result : Bytes) (chunkSize : Nat) {r : ReadVarResult} (hwf : WellFormed r)
    (hle : r.data.length ≤ 8191) (hcode : r.returnCode ≠ retCodeSuccess) :
    ∃ out, readAnswer reqLen result chunkSize [funcReadVar, 1] (readVarResultBytes [r]) = .ok (.error out) ∧
      out.status = .rejected ∧ out.data = result := by
  have hparse : parseReadVarResponse [funcReadVar, 1] (readVarResultBytes [r]) = .ok [r.item] :=
    parseReadVarResponse_eq (by simp) (by simpa using hwf) (by simpa using hle)
  have herr : returnCodeError r.item.returnCode =
      some (.s7 { code := r.item.returnCode, message := itemReturnCodeString r.item.returnCode }) := if_neg hcode
  unfold readAnswer
  rw [hparse]
  simp only [herr]
  exact ⟨_, rfl, rfl, rfl⟩

/-! ### Items of one bit -/

theorem asValidation_cases (r : Res Unit) (h : r ≠ .panic) : asValidation r = .ok () ∨ ∃ e, asValidation r = .fail e := by
  cases r with
  | ok a => exact .inl rfl
  | fail e => exact .inr ⟨_, rfl⟩
  | panic => exact absurd rfl h

theorem validateBitAddress_cases (addr : BitAddress) :
    validateBitAddress addr = .ok () ∨ ∃ e, validateBitAddress addr = .fail e := by
  have henc : validateS7AnyBitAddress { addr.s7Any with area := 0 } ≠ .panic := by
    unfold validateS7AnyBitAddress encodeS7AnyBit
    split_ifs <;> simp
  have harea : validateArea addr.area ≠ .panic := by
    unfold validateArea
    split_ifs <;> simp
  unfold validateBitAddress
  split_ifs
  · exact .inr ⟨_, rfl⟩
  · exact .inr ⟨_, rfl⟩
  · exact .inr ⟨_, rfl⟩
  · obtain h | ⟨e, h⟩ := asValidation_cases _ henc
    · rw [h, Outcome.ok_bind]
      exact asValidation_cases _ harea
    · rw [h]
      exact .inr ⟨e, rfl⟩

/-- A bit address that passes the checks, in the terms of its item. -/
theorem validateBitAddress_ok {addr : BitAddress} (h : validateBitAddress addr = .ok ()) :
    ∃ (db : UInt16) (o k : Nat), addr = ⟨addr.area, db.toNat, o, k⟩ ∧ o ≤ maxS7AnyByteOffset ∧ k < 8 := by
  obtain ⟨area, dbNumber, byteOffset, bitOffset⟩ := addr
  have henc : ∃ item, encodeS7AnyBit ⟨0, dbNumber, byteOffset, bitOffset⟩ = .ok item := by
    unfold validateBitAddress validateS7AnyBitAddress BitAddress.s7Any at h
    dsimp only at h
    split_ifs at h
    cases henc : encodeS7AnyBit ⟨0, dbNumber, byteOffset, bitOffset⟩ with
    | ok item => exact ⟨item, rfl⟩
    | fail e => rw [henc] at h; cases h
    | panic => rw [henc] at h; cases h
  obtain ⟨item, henc⟩ := henc
  unfold encodeS7AnyBit at henc
  dsimp only at henc
  split_ifs at henc with hdb hoff hbit
  have hmax : maxS7AnyDBNumber = 65535 := rfl
  obtain ⟨db, hdb'⟩ := Int.eq_ofNat_of_zero_le (show 0 ≤ dbNumber by omega)
  obtain ⟨o, ho⟩ := Int.eq_ofNat_of_zero_le (show 0 ≤ byteOffset by omega)
  obtain ⟨k, hk⟩ := Int.eq_ofNat_of_zero_le (show 0 ≤ bitOffset by omega)
  refine ⟨UInt16.ofNat db, o, k, ?_, by omega, by omega⟩
  rw [uint16_toNat_ofNat (by omega), hdb', ho, hk]

section Bits
variable {area : UInt8} {db : UInt16} {o k : Nat}

/-- The byte of a bit item lies in the region, if the item is taken. -/
theorem resolve_bitSpec_fits {mem : Memory} {t : Target} (h : resolve mem (bitSpec area db o k) = .ok t)
    (ho : o ≤ maxS7AnyByteOffset) (hk : k < 8) : o < t.reg.data.length := by
  have hplain : Area.timerOrCounter (bitSpec area db o k).area = false := (resolve_plain h rfl).1
  have hstart : (bitSpec area db o k).startBit.toNat = o * 8 + k := bitStart_toNat ho hk
  have hloc := (resolve_ok h).located
  have hfits := hloc.fits
  have hpos := hloc.size_pos
  rw [hloc.start_eq, VarSpec.byteStart, hplain, if_neg (by decide), hstart] at hfits
  omega

/-- The result of a bit item: the bit, or a refusal where there is no such byte. -/
theorem itemResult_readBit (mem : Memory) (ho : o ≤ maxS7AnyByteOffset) (hk : k < 8) :
    ∃ r, (∀ range, itemResult mem (bitSpec area db o k) range = .ok r) ∧ WellFormed r ∧ r.data.length ≤ 1 ∧
      ((∃ b, r = bitResult b k ∧ mem.readSpan ⟨area, db.toNat, o, 1⟩ o 1 = some [b]) ∨
        r.returnCode ≠ retCodeSuccess ∧ mem.readSpan ⟨area, db.toNat, o, 1⟩ o 1 = none) := by
  cases hspan : mem.readSpan ⟨area, db.toNat, o, 1⟩ o 1 with
  | some d =>
    obtain ⟨hplain, key, reg, hkey, hreg, hend, rfl⟩ := readSpan_eq_some.mp hspan
    have hin : o < reg.data.length := hend
    have hone : normalizeResponseDataLength dataTransportSizeBit 1 = .ok 1 := by decide
    refine ⟨_, itemResult_bitSpec ho hk hplain hkey hreg hin, ⟨fun h => absurd rfl h, fun _ _ => hone⟩, Nat.le_refl _,
      .inl ⟨_, rfl, ?_⟩⟩
    rw [List.drop_eq_getElem_cons hin, List.getD_eq_getElem?_getD, List.getElem?_eq_getElem hin]
    rfl
  | none =>
    obtain ⟨r, hr, hwf, hdata, hcode⟩ := itemResult_unresolved (bitSpec area db o k) rfl
      fun t ht => by
        obtain ⟨hplain, key, hkey, hreg⟩ := resolve_plain ht rfl
        have hin := resolve_bitSpec_fits ht ho hk
        have hsome : mem.readSpan ⟨area, db.toNat, o, 1⟩ o 1 = some ((t.reg.data.drop o).take 1) :=
          readSpan_eq_some.mpr ⟨hplain, key, t.reg, hkey, hreg, hin, rfl⟩
        rw [hsome] at hspan
        cases hspan
    exact ⟨r, hr, hwf, by simp [hdata], .inr ⟨hcode, rfl⟩⟩

/-- A bit request sets its bit or is refused, whatever the memory holds. -/
theorem handle_bit {cfg : ServerConfig} (s : Session) (ref : UInt16) (ho : o ≤ maxS7AnyByteOffset) (hk : k < 8)
    (v : Bool) :
    ∃ code s', handle cfg (message rosctrJob ref ([funcWriteVar, 1] ++ bitItem area db o k)
        [0x00, dataTransportSizeBit, 0x00, 0x01, if v then 1 else 0, 0x00]) s =
          (.ok (some (ackData ref 0 0 [funcWriteVar, 1] [code]), true), s') ∧ s'.pduSize = s.pduSize ∧
      (code = retCodeSuccess → SetsBit (Address.key ⟨area, db.toNat, o, 1⟩) o k v (s.mem, s'.mem)) ∧
      (code ≠ retCodeSuccess → s'.mem = s.mem ∧ ¬s.mem.Takes ⟨area, db.toNat, o, 1⟩ (o + 1)) := by
  have hparse := @parseWriteVarRequest_bitItem area db o k ho hk (if v then 1 else 0)
  have hserve := handle_write_item cfg (s := s) ref (by simp) (by simp) hparse
  rw [show ([if v then (1 : UInt8) else 0] : Bytes).length = 1 from rfl] at hserve
  refine ⟨_, _, hserve, rfl, fun hcode => ?_, fun hcode => ⟨if_neg hcode, ?_⟩⟩
  · cases hres : resolve s.mem (bitSpec area db o k) with
    | error code => exact absurd (resolve_eq_writeCode 1 hres ▸ hcode) (resolve_error_ne hres)
    | ok t =>
      obtain ⟨hplain, key, hkey, hreg⟩ := resolve_plain hres rfl
      have hin := resolve_bitSpec_fits hres ho hk
      have hkeyed : Address.key ⟨area, db.toNat, o, 1⟩ = key := by
        rw [← key_bitSpec (o := o) (k := k) hkey]
        simp [Address.key, VarSpec.key, bitSpec]
        rfl
      rw [hkeyed]
      refine ⟨⟨t.reg, hreg, hin⟩, fun key' i j => ?_⟩
      dsimp only
      rw [if_pos hcode]
      exact bitAt_storeItem ho hk hplain hkey hreg hin v key' i j
  · rintro ⟨hplain, key, reg, hkey, hreg, hro, hin⟩
    refine hcode ?_
    rw [writeCode_of_resolved 1 (resolve_bitSpec ho hk hplain hkey hreg hin), if_neg (by simp), if_neg]
    simp only [hro, hplain]
    decide

end Bits
end S7Comm
