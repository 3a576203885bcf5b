import S7Comm.Server.Meaning

/-! Address resolution. A resolved item lies in the region its fields name, at the bytes its fields name, and
    inside it; a refused item is refused with a code other than success. -/

namespace S7Comm
open Go

theorem keyOf_spec {spec : VarSpec} {key : AreaKey} (h : keyOf spec.area spec.dbNumber.toNat = .ok key) :
    key = spec.key := by
  unfold keyOf at h
  unfold VarSpec.key
  split at h
  · cases h
  split at h
  · rename_i hdb
    cases h
    rw [if_neg hdb]
  split at h
  · cases h
  · rename_i hdb _
    rw [not_not] at hdb
    cases h
    rw [if_pos hdb]
    simp

/-- What `locate` says about an item it takes. -/
structure Located (spec : VarSpec) (len : Nat) (span : Span) : Prop where
  start_eq : span.start = spec.byteStart
  size_eq : span.size = spec.byteCount
  size_pos : 0 < span.size
  fits : span.start + span.size ≤ len
  bit_lt : span.bit < 8
  bit_eq : spec.isBit → span.bit = spec.bitIndex
  bit_size : spec.isBit → span.size = 1

theorem locate_ok {spec : VarSpec} {len : Nat} {span : Span} (h : locate spec len = .ok span) :
    Located spec len span := by
  unfold locate at h
  dsimp only at h
  split_ifs at h with _ harea hsize _ htc hfit hfit
  -- The transport size is a timer's or a counter's exactly when the area is.
  all_goals
    rw [not_or] at harea hsize
    rw [not_not] at harea
    rw [Nat.not_lt] at hfit
    cases h
  · refine ⟨?_, rfl, Nat.pos_of_ne_zero hsize.1, hfit, Nat.zero_lt_succ _, fun hbit => ?_, fun hbit => ?_⟩
    · simp [VarSpec.byteStart, harea.1, htc]
    all_goals
      have hbit' : spec.transportSize = transportSizeBit := by simpa [VarSpec.isBit] using hbit
      rw [hbit'] at htc
      exact absurd htc (by decide)
  · refine ⟨?_, rfl, Nat.pos_of_ne_zero hsize.1, hfit, Nat.mod_lt _ (by decide), fun _ => rfl, fun hbit => ?_⟩
    · simp [VarSpec.byteStart, harea.1, htc]
    · have hle := not_and.mp hsize.2 hbit
      have hpos := hsize.1
      dsimp only
      omega

theorem locate_error_ne {spec : VarSpec} {len : Nat} {code : UInt8} (h : locate spec len = .error code) :
    code ≠ retCodeSuccess := by
  unfold locate at h
  dsimp only at h
  split_ifs at h <;> cases h <;> decide

/-- What `resolve` says about an item it takes. -/
structure Resolved (mem : Memory) (spec : VarSpec) (t : Target) : Prop where
  syntax_eq : spec.syntaxID = syntaxIDS7Any
  key_eq : t.key = spec.key
  reg_eq : mem.regions spec.key = some t.reg
  located : Located spec t.reg.data.length t.toSpan
  isBit_eq : t.isBit = spec.isBit
  transp_eq : t.transp = spec.transportSize
  area_eq : t.area = spec.area

theorem resolve_ok {mem : Memory} {spec : VarSpec} {t : Target} (h : resolve mem spec = .ok t) :
    Resolved mem spec t := by
  unfold resolve at h
  split at h
  · cases h
  rename_i hsyn
  split at h
  · rename_i key hkey
    have hkey' := keyOf_spec hkey
    split at h
    · cases h
    · rename_i reg hreg
      split at h
      · cases h
      · rename_i span hspan
        cases h
        exact ⟨not_not.mp hsyn, hkey', hkey' ▸ hreg, locate_ok hspan, rfl, rfl, rfl⟩
  · cases h

theorem resolve_error_ne {mem : Memory} {spec : VarSpec} {code : UInt8} (h : resolve mem spec = .error code) :
    code ≠ retCodeSuccess := by
  unfold resolve at h
  split at h
  · cases h
    decide
  split at h
  · split at h
    · cases h
      decide
    · split at h
      · rename_i hspan
        cases h
        exact locate_error_ne hspan
      · cases h
  · cases h
    decide

end S7Comm
