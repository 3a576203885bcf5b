import S7Comm.Client.SZL
import S7Comm.Theorems.ParserBounds

/-! Records of SZL lists. All records of a list have the length that its header declares, so that a loop over them fails
    at the first one or at none. -/

namespace S7Comm
open Go

/-! ### Splitting -/

/-- The record length of a list. -/
def recordLength (data : Bytes) : Nat := (be16 (data.getD 0 0) (data.getD 1 0)).toNat

/-- The record count that a list declares. -/
def recordCount (data : Bytes) : Nat := (be16 (data.getD 2 0) (data.getD 3 0)).toNat

/-- The records from `off` on, `n` of them. -/
def recordsAt (data : Bytes) (size off n : Nat) : List Bytes :=
  (List.range n).map fun i => (data.drop (off + i * size)).take size

theorem recordsAt_succ (data : Bytes) (size off n : Nat) :
    recordsAt data size off (n + 1) = (data.drop off).take size :: recordsAt data size (off + size) n := by
  have hnext (i : Nat) : off + (i + 1) * size = off + size + i * size := by
    rw [Nat.succ_mul]
    omega
  simp [recordsAt, List.range_succ_eq_map, Function.comp_def, hnext]

/-- The loop gives as many records as are declared and present. -/
theorem szlRecordsFrom_eq {data : Bytes} {size : Nat} (hsize : 0 < size) (left off : Nat) :
    szlRecordsFrom data size left off = .ok (recordsAt data size off (min left ((data.length - off) / size))) := by
  induction left generalizing off with
  | zero =>
    rw [Nat.zero_min]
    rfl
  | succ left ih =>
    unfold szlRecordsFrom
    split
    · rename_i hfits
      have hcount : (data.length - off) / size = (data.length - (off + size)) / size + 1 := by
        rw [← Nat.add_div_right _ hsize]
        congr 1
        omega
      rw [sliceOf_of_le (by omega) hfits, Outcome.ok_bind, ih, Nat.add_sub_cancel_left, hcount, Nat.succ_min_succ,
        recordsAt_succ]
      rfl
    · rename_i hfits
      have hcount : (data.length - off) / size = 0 := Nat.div_eq_of_lt (by omega)
      rw [hcount, Nat.min_zero]
      rfl

section Split
variable {data : Bytes}

theorem szlRecords_of_le (hlen : 4 ≤ data.length) :
    szlRecords data =
      if recordLength data = 0 then .fail (.text "SZL record length 0")
      else szlRecordsFrom data (recordLength data) (recordCount data) 4 := by
  unfold szlRecords
  rw [if_neg (by omega), wordAt_of_le (by omega), wordAt_of_le (by omega)]
  rfl

theorem szlRecords_eq (hlen : 4 ≤ data.length) (hsize : recordLength data ≠ 0) :
    szlRecords data = .ok (recordsAt data (recordLength data) 4
      (min (recordCount data) ((data.length - 4) / recordLength data))) := by
  rw [szlRecords_of_le hlen, if_neg hsize, szlRecordsFrom_eq (Nat.pos_of_ne_zero hsize)]

theorem szlRecords_fail (h : ¬(4 ≤ data.length ∧ recordLength data ≠ 0)) : ∃ e, szlRecords data = .fail e := by
  by_cases hlen : 4 ≤ data.length
  · have hsize : recordLength data = 0 := by
      by_contra hsize
      exact h ⟨hlen, hsize⟩
    rw [szlRecords_of_le hlen, if_pos hsize]
    exact ⟨_, rfl⟩
  · unfold szlRecords
    rw [if_pos (Nat.not_le.mp hlen)]
    exact ⟨_, rfl⟩

/-- A record that is counted is present. -/
theorem record_le {size off count i : Nat} (hoff : off ≤ data.length)
    (hi : i < min count ((data.length - off) / size)) : off + (i + 1) * size ≤ data.length := by
  have hmul : (i + 1) * size ≤ (data.length - off) / size * size := Nat.mul_le_mul_right size (by omega)
  have := Nat.div_mul_le_self (data.length - off) size
  omega

/-- A list is refused, or split into records that all have the declared length. -/
theorem szlRecords_cases (data : Bytes) :
    (∃ e, szlRecords data = .fail e) ∨
      ∃ recs, szlRecords data = .ok recs ∧ ∀ r ∈ recs, r.length = recordLength data := by
  by_cases h : 4 ≤ data.length ∧ recordLength data ≠ 0
  · refine .inr ⟨_, szlRecords_eq h.1 h.2, fun r hr => ?_⟩
    obtain ⟨i, hi, rfl⟩ := List.mem_map.mp hr
    have hle := record_le h.1 (List.mem_range.mp hi)
    rw [Nat.succ_mul] at hle
    rw [List.length_take, List.length_drop]
    omega
  · exact .inl (szlRecords_fail h)

/-- What splitting a list is to do. -/
structure SplitsExactly (data : Bytes) : Prop where
  succeeds : (∃ recs, szlRecords data = .ok recs) ↔ 4 ≤ data.length ∧ recordLength data ≠ 0
  fails : ¬(4 ≤ data.length ∧ recordLength data ≠ 0) → ∃ e, szlRecords data = .fail e
  count : ∀ recs, szlRecords data = .ok recs →
    recs.length = min (recordCount data) ((data.length - 4) / recordLength data)
  record : ∀ recs, szlRecords data = .ok recs → ∀ i r, recs[i]? = some r →
    sliceOf data (4 + i * recordLength data) (4 + (i + 1) * recordLength data) = .ok r

theorem splitsExactly (data : Bytes) : SplitsExactly data := by
  have hok : (∃ recs, szlRecords data = .ok recs) → 4 ≤ data.length ∧ recordLength data ≠ 0 := by
    rintro ⟨recs, hrecs⟩
    by_contra h
    obtain ⟨e, he⟩ := szlRecords_fail h
    rw [he] at hrecs
    cases hrecs
  refine ⟨⟨hok, fun h => ⟨_, szlRecords_eq h.1 h.2⟩⟩, szlRecords_fail, fun recs hrecs => ?_,
    fun recs hrecs i r hr => ?_⟩
  · obtain ⟨hlen, hsize⟩ := hok ⟨recs, hrecs⟩
    rw [szlRecords_eq hlen hsize] at hrecs
    cases hrecs
    simp [recordsAt]
  · obtain ⟨hlen, hsize⟩ := hok ⟨recs, hrecs⟩
    rw [szlRecords_eq hlen hsize] at hrecs
    cases hrecs
    rw [recordsAt, List.getElem?_map, Option.map_eq_some_iff] at hr
    obtain ⟨j, hj, rfl⟩ := hr
    obtain ⟨hi, rfl⟩ := List.getElem?_eq_some_iff.mp hj
    rw [List.length_range] at hi
    rw [List.getElem_range, sliceOf_of_le (by rw [Nat.succ_mul]; omega) (record_le hlen hi)]
    congr 2
    rw [Nat.succ_mul]
    omega

end Split

/-! ### Loops over records -/

section Apply
variable {apply : Bytes → Eff DeviceInfo GoError Unit} {size : Nat}

/-- What one step of a loop does: it refuses a record that is too short and takes any other. -/
structure Takes (apply : Bytes → Eff DeviceInfo GoError Unit) (size : Nat) : Prop where
  short : ∀ r info, r.length < size → ∃ e, apply r info = (.fail e, info)
  long : ∀ r info, size ≤ r.length → ∃ info', apply r info = (.ok (), info')

/-- By induction over the records: they are all too short, or none of them is. -/
theorem Takes.records (h : Takes apply size) {len : Nat} {recs : List Bytes} (hlen : ∀ r ∈ recs, r.length = len)
    (info : DeviceInfo) :
    (∃ info', applyRecords apply recs info = (.ok (), info')) ∨
      ∃ e, applyRecords apply recs info = (.fail e, info) := by
  by_cases hshort : len < size
  · cases recs with
    | nil => exact .inl ⟨info, rfl⟩
    | cons r recs =>
      obtain ⟨e, he⟩ := h.short r info (by rw [hlen r (List.mem_cons_self ..)]; exact hshort)
      exact .inr ⟨e, Eff.bind_fail he⟩
  · refine .inl ?_
    induction recs generalizing info with
    | nil => exact ⟨info, rfl⟩
    | cons r recs ih =>
      obtain ⟨info₁, hr⟩ := h.long r info (by rw [hlen r (List.mem_cons_self ..)]; exact Nat.not_lt.mp hshort)
      obtain ⟨info₂, hrest⟩ := ih (fun r' hr' => hlen r' (List.mem_cons_of_mem r hr')) info₁
      exact ⟨info₂, (Eff.bind_ok hr).trans hrest⟩

theorem takes_applyModuleIDRecord : Takes applyModuleIDRecord moduleIDRecordSize := by
  refine ⟨fun r info hlen => ?_, fun r info hlen => ?_⟩
  · unfold applyModuleIDRecord
    rw [if_pos hlen]
    exact ⟨_, rfl⟩
  · have hlen' : 28 ≤ r.length := hlen
    unfold applyModuleIDRecord
    rw [if_neg (Nat.not_lt.mpr hlen), wordAt_of_le (by omega), sliceOf_of_le (by omega) (by omega),
      indexAt_of_lt (show 24 < r.length by omega), indexAt_of_lt (show 25 < r.length by omega),
      indexAt_of_lt (show 26 < r.length by omega), indexAt_of_lt (show 27 < r.length by omega)]
    rw [Eff.bind_ok (Eff.lift_apply _ _)]
    split
    · exact ⟨_, rfl⟩
    split
    · rw [Eff.bind_ok (Eff.lift_apply _ _)]
      split <;> exact ⟨_, rfl⟩
    · exact ⟨_, rfl⟩

theorem takes_applyComponentIDRecord : Takes applyComponentIDRecord componentIDRecordSize := by
  refine ⟨fun r info hlen => ?_, fun r info hlen => ?_⟩
  · unfold applyComponentIDRecord
    rw [if_pos hlen]
    exact ⟨_, rfl⟩
  · have hlen' : 34 ≤ r.length := hlen
    unfold applyComponentIDRecord
    rw [if_neg (Nat.not_lt.mpr hlen), wordAt_of_le (by omega), sliceOf_of_le (by omega) (by omega)]
    exact ⟨_, rfl⟩

/-- A list is applied as a whole or not at all, and no index is out of range. -/
structure Atomic (applyList : Bytes → Eff DeviceInfo GoError Unit) (data : Bytes) : Prop where
  inBounds : ∀ info, (applyList data info).1 ≠ .panic
  unchanged : ∀ info e info', applyList data info = (.fail e, info') → info' = info

theorem Takes.atomic (h : Takes apply size) {applyList : Bytes → Eff DeviceInfo GoError Unit}
    (hlist : ∀ data, applyList data = liftM (szlRecords data) >>= applyRecords apply) (data : Bytes) :
    Atomic applyList data := by
  have hcases (info : DeviceInfo) :
      (∃ info', applyList data info = (.ok (), info')) ∨ ∃ e, applyList data info = (.fail e, info) := by
    rw [hlist]
    rcases szlRecords_cases data with ⟨e, he⟩ | ⟨recs, hrecs, hlen⟩
    · rw [he]
      exact .inr ⟨e, rfl⟩
    · rw [hrecs]
      exact h.records hlen info
  constructor
  · intro info
    rcases hcases info with ⟨info', hok⟩ | ⟨e, hfail⟩
    · simp [hok]
    · simp [hfail]
  · intro info e info' hrun
    rcases hcases info with ⟨info'', hok⟩ | ⟨e', hfail⟩
    · rw [hok] at hrun
      cases hrun
    · rw [hfail] at hrun
      cases hrun
      rfl

end Apply

/-! ### Diagnostic buffer -/

theorem diagEntry_of_le {r : Bytes} (h : 20 ≤ r.length) : ∃ entry, diagEntry r = .ok entry := by
  obtain ⟨info2, hinfo⟩ := dwordAt_of_le (b := r) (i := 8) (by omega)
  unfold diagEntry
  rw [wordAt_of_le (by omega), indexAt_of_lt (show 0 < r.length by omega), indexAt_of_lt (show 2 < r.length by omega),
    wordAt_of_le (by omega), hinfo, sliceOf_of_le (by omega) (by omega)]
  exact ⟨_, rfl⟩

/-- By induction over the records: either no record is too short, and no error comes of them, or the first one is, and
    the buffer has no entry yet. -/
theorem diagRecords_cases {len : Nat} {recs : List Bytes} (hlen : ∀ r ∈ recs, r.length = len) (buf : DiagBuffer) :
    (∃ buf', diagRecords recs buf = .ok (some buf', none)) ∨ ∃ e, diagRecords recs buf = .ok (some buf, some e) := by
  by_cases hshort : len < diagRecordSize
  · cases recs with
    | nil => exact .inl ⟨_, rfl⟩
    | cons r recs =>
      rw [diagRecords, if_pos (by rw [hlen r (List.mem_cons_self ..)]; exact hshort)]
      exact .inr ⟨_, rfl⟩
  · refine .inl ?_
    induction recs generalizing buf with
    | nil => exact ⟨_, rfl⟩
    | cons r recs ih =>
      have hr := hlen r (List.mem_cons_self ..)
      obtain ⟨entry, hentry⟩ := diagEntry_of_le (r := r) (by rw [hr]; exact Nat.not_lt.mp hshort)
      rw [diagRecords, if_neg (by rw [hr]; exact hshort), hentry]
      exact ih (fun r' hr' => hlen r' (List.mem_cons_of_mem r hr')) _

theorem diagBuffer_cases (raw : Bytes) :
    (∃ e, diagBuffer raw = .ok (none, some e)) ∨ (∃ buf, diagBuffer raw = .ok (some buf, none)) ∨
      ∃ e, diagBuffer raw = .ok (some {}, some e) := by
  unfold diagBuffer
  rcases szlRecords_cases raw with ⟨e, he⟩ | ⟨recs, hrecs, hlen⟩
  · rw [he]
    exact .inl ⟨e, rfl⟩
  · rw [hrecs]
    exact .inr (diagRecords_cases hlen {})

theorem diagBuffer_error {raw : Bytes} {buf : DiagBuffer} {err : GoError}
    (h : diagBuffer raw = .ok (some buf, some err)) : buf.entries = [] := by
  rcases diagBuffer_cases raw with ⟨e, he⟩ | ⟨buf', hok⟩ | ⟨e, he⟩
  · rw [he] at h
    cases h
  · rw [hok] at h
    cases h
  · rw [he] at h
    cases h
    rfl

theorem readDiagBuffer_error {σ : Type} {net : Net σ} {st st' : Client × σ} {buf : DiagBuffer} {err : GoError}
    (h : readDiagBuffer net st = (.ok (some buf, some err), st')) : buf.entries = [] := by
  unfold readDiagBuffer at h
  obtain ⟨raw, st₁, -, h⟩ := Eff.bind_eq_ok.mp h
  cases raw with
  | error e => cases h
  | ok raw => exact diagBuffer_error (Prod.mk.inj h).1

/-- Decoding SZL lists: every list is split exactly, its records are applied as a whole or not at all, and the
    diagnostic buffer that comes with an error has no entries. -/
theorem szl_decoding (data : Bytes) :
    SplitsExactly data ∧ Atomic applyModuleID data ∧ Atomic applyComponentID data ∧ diagBuffer data ≠ .panic ∧
      (∀ buf err, diagBuffer data = .ok (some buf, some err) → buf.entries = []) ∧
      ∀ (σ : Type) (net : Net σ) (st st' : Client × σ) (buf : DiagBuffer) (err : GoError),
        readDiagBuffer net st = (.ok (some buf, some err), st') → buf.entries = [] := by
  refine ⟨splitsExactly data, takes_applyModuleIDRecord.atomic (fun _ => rfl) data,
    takes_applyComponentIDRecord.atomic (fun _ => rfl) data, ?_, fun _ _ => diagBuffer_error,
    fun _ _ _ _ _ _ => readDiagBuffer_error⟩
  rcases diagBuffer_cases data with ⟨e, he⟩ | ⟨buf, hok⟩ | ⟨e, he⟩
  · simp [he]
  · simp [hok]
  · simp [he]

end S7Comm
