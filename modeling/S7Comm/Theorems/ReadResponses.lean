import S7Comm.Theorems.DataGrammar

/-! Read Var answers against their grammar: which sections the decoder accepts although they hold more than the
    declared items, and where it splits a section as the decoder of Write Var jobs does. -/

namespace S7Comm
open Go

/-! ### Surplus bytes -/

/-- An accepted section is exactly the declared items, with at most the fill byte of the last after them, unless it
    goes on after them: the decoder stops at the last item and does not look at what follows. -/
theorem parseReadVarResponse_strict_iff (param data : Bytes) :
    (∀ results, parseReadVarResponse param data = .ok results →
      ∃ items : List AnswerItem, items.length = (param.getD 1 0).toNat ∧ items.map AnswerItem.result = results ∧
        AnswerSection items data) ↔
    ¬((2 ≤ param.length ∧ param.head? = some funcReadVar) ∧ Surplus (param.getD 1 0).toNat data) := by
  constructor
  · rintro hstrict ⟨hparam, items, e, rest, hlen, hseries, hmore, rfl⟩
    obtain ⟨items', hlen', -, e', fill, hseries', hfill, hdata⟩ := hstrict _
      (parseReadVarResponse_eq_ok.mpr ⟨hparam, items, hlen, rfl, e, rest, hseries, rfl⟩)
    obtain ⟨rfl, rfl⟩ := Series.unique unambiguous_stands (hlen.trans hlen'.symm) hseries hseries'
      (standsAt_zero.mpr ⟨rest, rfl⟩) (standsAt_zero.mpr ⟨fill, hdata⟩)
    obtain rfl := List.append_cancel_left hdata
    omega
  · intro hno results hok
    obtain ⟨hparam, items, hlen, hresults, e, tail, hseries, rfl⟩ := parseReadVarResponse_eq_ok.mp hok
    refine ⟨items, hlen, hresults, e, tail, hseries, ?_, rfl⟩
    by_contra hmore
    exact hno ⟨hparam, items, e, tail, hlen, hseries, by omega, rfl⟩

/-- An answer that declares one item and holds two. -/
def surplusAnswer : Bytes := [0xFF, 0x04, 0, 16, 1, 2, 0xFF, 0x04, 0, 16, 3, 4]

/-- The second item is dropped without an error. -/
theorem parseReadVarResponse_surplusAnswer :
    parseReadVarResponse [funcReadVar, 1] surplusAnswer = .ok [⟨0xFF, 0x04, 16, [1, 2]⟩] ∧
      ¬∃ items : List AnswerItem, items.length = 1 ∧ items.map AnswerItem.result = [⟨0xFF, 0x04, 16, [1, 2]⟩] ∧
        AnswerSection items surplusAnswer := by
  refine ⟨by decide, ?_⟩
  rintro ⟨items, hlen, hresults, e, fill, hseries, hfill, hdata⟩
  obtain ⟨item, rfl⟩ := List.length_eq_one_iff.mp hlen
  obtain ⟨e₁, e₂, ⟨fill₁, hfill₁, rfl⟩, hnil, rfl⟩ := hseries
  have hpayload : item.payload = [1, 2] := by
    have hresult := List.singleton_inj.mp hresults
    have hcode : item.returnCode = retCodeSuccess := congrArg ReadVarItem.returnCode hresult
    have hdata := congrArg ReadVarItem.data hresult
    rwa [AnswerItem.result, if_pos hcode] at hdata
  have hend : endFill [item] = 0 := by simp [endFill, hpayload]
  have hlength := congrArg List.length hdata
  rw [hend] at hfill
  rw [hnil] at hlength
  simp [surplusAnswer, hpayload, hfill₁] at hlength
  omega

/-! ### The splitters of both directions -/

/-- Where the payloads of a section are, as start and length, when they have the lengths `ns` and the items start
    at `off`. -/
def payloadRanges : (off : Nat) → (ns : List Nat) → List (Nat × Nat)
  | _, [] => []
  | off, n :: ns => (off + 4, n) :: payloadRanges (off + 4 + n + n % 2) ns

theorem payloadRanges_inj {off : Nat} {ns ms : List Nat} (h : payloadRanges off ns = payloadRanges off ms) :
    ns = ms := by
  induction ns generalizing off ms with
  | nil =>
    cases ms with
    | nil => rfl
    | cons m ms => cases h
  | cons n ns ih =>
    cases ms with
    | nil => cases h
    | cons m ms =>
      obtain ⟨hhead, htail⟩ := List.cons.inj h
      obtain rfl : n = m := (Prod.mk.inj hhead).2
      rw [ih htail]

section Ranges
variable {α : Type} {Enc : Bool → α → Bytes → Prop} {data : Bytes}

/-- The payloads of a series stand where `payloadRanges` says. -/
theorem series_payloadRanges (payload : α → Bytes)
    (henc : ∀ {last a e}, Enc last a e → ∃ code transport raw, DataItem last code transport raw (payload a) e)
    {as : List α} {e : Bytes} {off : Nat} (hs : Series Enc as e) (hat : StandsAt data off e) :
    List.Forall₂ (fun a r => r.2 = (payload a).length ∧ StandsAt data r.1 (payload a)) as
      (payloadRanges off (as.map fun a => (payload a).length)) := by
  induction as generalizing off e with
  | nil => exact .nil
  | cons a as ih =>
    obtain ⟨e₁, e₂, ha, hs, rfl⟩ := hs
    obtain ⟨code, transport, raw, fill, hfill, rfl⟩ := henc ha
    rw [standsAt_append, standsAt_dataItem] at hat
    obtain ⟨⟨-, hpayload, -⟩, hat⟩ := hat
    refine .cons ⟨rfl, hpayload⟩ ?_
    cases as with
    | nil => exact .nil
    | cons a' as =>
      apply ih hs
      convert hat using 1
      simp only [List.length_append, length_dataHeader, hfill, List.isEmpty_cons, Bool.false_eq_true, ↓reduceIte]
      omega

end Ranges

/-- A written item whose length field means the same in an answer. -/
theorem WriteVarData.Sized.answer {w : WriteVarData} (h : w.Sized)
    (hbit : w.transportSize = dataTransportSizeBit → w.rawLength.toNat ≤ 1) :
    ∃ item : AnswerItem, item.payload = w.data ∧ ∀ {last e}, WrittenItem last w e → item.Stands last e := by
  have hraw : w.rawLength = 0 → w.data = [] := by
    intro h0
    apply List.eq_nil_of_length_eq_zero
    rcases h with ⟨-, h⟩ | ⟨-, h⟩ <;> simp only [h0, UInt16.toNat_zero] at h <;> omega
  have hnormalize : normalizeResponseDataLength w.transportSize w.rawLength = .ok w.data.length := by
    unfold normalizeResponseDataLength
    rcases h with ⟨ht, hlen⟩ | ⟨ht, hlen⟩
    · simp only [List.mem_cons, List.not_mem_nil, or_false] at ht
      rcases ht with ht | ht | ht | ht
      · have hone := hbit ht
        rw [if_pos (.inl ht)]
        congr 1
        omega
      · rw [ht, if_neg (by decide), if_pos (by decide), hlen]
      · rw [ht, if_neg (by decide), if_pos (by decide), hlen]
      · rw [ht, if_neg (by decide), if_pos (by decide), hlen]
    · simp only [List.mem_cons, List.not_mem_nil, or_false] at ht
      rw [if_pos (.inr ht)]
      congr 1
      omega
  have htransport : w.transportSize ≠ 0 := by
    intro h0
    unfold WriteVarData.Sized at h
    rw [h0] at h
    rcases h with ⟨ht, -⟩ | ⟨ht, -⟩ <;> exact absurd ht (by decide)
  refine ⟨⟨w.returnCode, w.transportSize, w.rawLength, w.data, ?_⟩, rfl, fun hw => hw.2⟩
  split
  · rename_i hnone
    exact hraw (hnone.2.resolve_left htransport)
  · exact hnormalize

/-- Written items without a BIT field above 1 are, byte for byte, items of an answer. -/
theorem answer_of_written {ws : List WriteVarData} {e : Bytes} (hs : Series WrittenItem ws e)
    (hbit : ∀ w ∈ ws, w.transportSize = dataTransportSizeBit → w.rawLength.toNat ≤ 1) :
    ∃ items : List AnswerItem, items.length = ws.length ∧
      items.map AnswerItem.payload = ws.map WriteVarData.data ∧ Series AnswerItem.Stands items e := by
  induction ws generalizing e with
  | nil => exact ⟨[], rfl, rfl, hs⟩
  | cons w ws ih =>
    obtain ⟨e₁, e₂, hw, hs, rfl⟩ := hs
    obtain ⟨hbit₁, hbit₂⟩ := List.forall_mem_cons.mp hbit
    obtain ⟨item, hpayload, hstands⟩ := hw.1.answer hbit₁
    obtain ⟨items, hlen, hpayloads, hseries⟩ := ih hs hbit₂
    refine ⟨item :: items, by simp [hlen], by simp [hpayload, hpayloads], e₁, e₂, ?_, hseries, rfl⟩
    rw [isEmpty_eq_of_length_eq hlen]
    exact hstands hw

/-- Payloads of the same lengths are split at the same headers, and a BIT field of 2 or more is not of the same
    length in both. -/
theorem rawLength_le_one {data : Bytes} {ws : List WriteVarData} {items : List AnswerItem} {e e' : Bytes} {off : Nat}
    (hs : Series WrittenItem ws e) (hs' : Series AnswerItem.Stands items e') (hat : StandsAt data off e)
    (hat' : StandsAt data off e')
    (hlen : ws.map (fun w => w.data.length) = items.map fun item => item.payload.length) :
    ∀ w ∈ ws, w.transportSize = dataTransportSizeBit → w.rawLength.toNat ≤ 1 := by
  induction ws generalizing items e e' off with
  | nil => simp
  | cons w ws ih =>
    cases items with
    | nil => cases hlen
    | cons item items =>
      rw [List.map_cons, List.map_cons, List.cons.injEq] at hlen
      obtain ⟨e₁, e₂, ⟨hsized, fill, hfill, rfl⟩, hs, rfl⟩ := hs
      obtain ⟨e₁', e₂', ⟨fill', hfill', rfl⟩, hs', rfl⟩ := hs'
      have hcount : ws.length = items.length := by simpa using congrArg List.length hlen.2
      rw [standsAt_append, standsAt_dataItem] at hat hat'
      obtain ⟨⟨⟨-, ht, hr⟩, -, -⟩, hat⟩ := hat
      obtain ⟨⟨⟨-, ht', hr'⟩, -, -⟩, hat'⟩ := hat'
      refine List.forall_mem_cons.mpr ⟨fun hbit => ?_, ih hs hs' hat ?_ hlen.2⟩
      · have htransport : w.transportSize = item.transportSize := List.singleton_inj.mp (ht.unique ht' rfl)
        have hraw : w.rawLength = item.rawLength := by
          have hword : (uint16At data (off + 2) : Res UInt16) = .ok w.rawLength := uint16At_eq_ok_iff.mpr hr
          rw [uint16At_eq_ok_iff.mpr hr'] at hword
          exact (Outcome.ok.inj hword).symm
        have hwrite : w.rawLength.toNat = w.data.length := by
          unfold WriteVarData.Sized at hsized
          rw [hbit] at hsized
          rcases hsized with ⟨-, h⟩ | ⟨h, -⟩
          · exact h
          · exact absurd h (by decide)
        have hsized' := item.sized
        rw [← htransport, ← hraw, hbit] at hsized'
        split at hsized'
        · rw [hwrite, hlen.1, hsized']
          simp
        · have hread : (w.rawLength.toNat + 7) / 8 = item.payload.length := Outcome.ok.inj hsized'
          omega
      · convert hat' using 1
        simp only [List.length_append, length_dataHeader, hfill, hfill', isEmpty_eq_of_length_eq hcount, hlen.1]

/-- The results of an answer without a refused item are its payloads. -/
theorem map_data_of_success {items : List AnswerItem} {results : List ReadVarItem}
    (h : items.map AnswerItem.result = results) (hok : ∀ r ∈ results, r.returnCode = retCodeSuccess) :
    results.map ReadVarItem.data = items.map AnswerItem.payload := by
  subst h
  rw [List.map_map]
  refine List.map_congr_left fun item hitem => ?_
  have hcode : item.returnCode = retCodeSuccess := hok item.result (List.mem_map_of_mem hitem)
  simp [AnswerItem.result, hcode]

/-- The decoder of jobs and the decoder of answers split a section that both accept, with as many items and no item
    refused, at the same byte ranges exactly when no BIT item has a length field above 1. -/
theorem splitters_agree_iff {data job answer : Bytes} {specs : List VarSpec} {writes : List WriteVarData}
    {reads : List ReadVarItem} (hw : parseWriteVarRequest job data = .ok (specs, writes))
    (hr : parseReadVarResponse answer data = .ok reads) (hn : reads.length = specs.length)
    (hok : ∀ r ∈ reads, r.returnCode = retCodeSuccess) :
    List.Forall₂ (fun w r => r.2 = w.data.length ∧ StandsAt data r.1 w.data) writes
      (payloadRanges 0 (writes.map fun w => w.data.length)) ∧
    List.Forall₂ (fun item r => r.2 = item.data.length ∧ StandsAt data r.1 item.data) reads
      (payloadRanges 0 (reads.map fun item => item.data.length)) ∧
    (payloadRanges 0 (writes.map fun w => w.data.length) = payloadRanges 0 (reads.map fun item => item.data.length) ↔
      ∀ w ∈ writes, w.transportSize = dataTransportSizeBit → w.rawLength.toNat ≤ 1) := by
  obtain ⟨jobs, -, -, -, rfl, hlen, e, tail, hseries, -, rfl⟩ := parseWriteVarRequest_eq_ok.mp hw
  obtain ⟨-, items, -, hresults, e', tail', hseries', hdata⟩ := parseReadVarResponse_eq_ok.mp hr
  have hat : StandsAt (e ++ tail) 0 e := standsAt_zero.mpr ⟨tail, rfl⟩
  have hat' : StandsAt (e ++ tail) 0 e' := standsAt_zero.mpr ⟨tail', hdata⟩
  have hcount : items.length = writes.length := by
    have := congrArg List.length hresults
    rw [List.length_map] at this
    rw [this, hn, List.length_map, hlen]
  have hpayloads := map_data_of_success hresults hok
  have hlengths : (reads.map fun item => item.data.length) = items.map fun item => item.payload.length := by
    have := congrArg (List.map List.length) hpayloads
    rwa [List.map_map, List.map_map] at this
  refine ⟨series_payloadRanges _ (fun h => ⟨_, _, _, h.2⟩) hseries hat, ?_, ?_, ?_⟩
  · have hranges := series_payloadRanges AnswerItem.payload (fun h => ⟨_, _, _, h⟩) hseries' hat'
    rw [hlengths]
    have hmap := List.forall₂_map_left_iff (f := AnswerItem.payload)
      (R := fun (d : Bytes) (r : Nat × Nat) => r.2 = d.length ∧ StandsAt (e ++ tail) r.1 d) |>.mpr hranges
    rw [← hpayloads] at hmap
    exact List.forall₂_map_left_iff.mp hmap
  · intro hranges
    have hns := payloadRanges_inj hranges
    rw [hlengths] at hns
    exact rawLength_le_one hseries hseries' hat hat' hns
  · intro hbit
    obtain ⟨items', hlen', hpayloads', hseries''⟩ := answer_of_written hseries hbit
    obtain ⟨rfl, -⟩ := Series.unique unambiguous_stands (hlen'.trans hcount.symm) hseries'' hseries' hat hat'
    rw [hlengths]
    have := congrArg (List.map List.length) hpayloads'
    rw [List.map_map, List.map_map] at this
    exact congrArg (payloadRanges 0) this.symm

/-- The parameter section of a job with `n` items of one byte of DB1. -/
def bytesJob (n : Nat) : Bytes :=
  [funcWriteVar, UInt8.ofNat n] ++ (List.replicate n (putS7Any transportSizeByte 1 1 areaDB 0)).flatten

/-- A BIT item and a BYTE item after its fill byte. -/
theorem splitters_agree_bit_byte :
    payloadRanges 0 ([⟨0xFF, 0x03, 1, [1]⟩, ⟨0xFF, 0x04, 16, [2, 3]⟩].map fun w : WriteVarData => w.data.length) =
      payloadRanges 0 ([⟨0xFF, 0x03, 1, [1]⟩, ⟨0xFF, 0x04, 16, [2, 3]⟩].map fun r : ReadVarItem => r.data.length) := by
  have hw : parseWriteVarRequest (bytesJob 2) [0xFF, 0x03, 0, 1, 1, 0, 0xFF, 0x04, 0, 16, 2, 3] =
      .ok ([⟨0x10, 0x02, 1, 1, 0x84, 0⟩, ⟨0x10, 0x02, 1, 1, 0x84, 0⟩],
        [⟨0xFF, 0x03, 1, [1]⟩, ⟨0xFF, 0x04, 16, [2, 3]⟩]) := by decide +kernel
  have hr : parseReadVarResponse [funcReadVar, 2] [0xFF, 0x03, 0, 1, 1, 0, 0xFF, 0x04, 0, 16, 2, 3] =
      .ok [⟨0xFF, 0x03, 1, [1]⟩, ⟨0xFF, 0x04, 16, [2, 3]⟩] := by decide +kernel
  exact (splitters_agree_iff hw hr rfl (by decide)).2.2.mpr (by decide)

/-- A BIT item with a length field of 2: a job has two bytes of data, an answer one. -/
theorem splitters_disagree_two_bits :
    parseWriteVarRequest (bytesJob 1) [0xFF, 0x03, 0, 2, 1, 0] =
      .ok ([⟨0x10, 0x02, 1, 1, 0x84, 0⟩], [⟨0xFF, 0x03, 2, [1, 0]⟩]) ∧
    parseReadVarResponse [funcReadVar, 1] [0xFF, 0x03, 0, 2, 1, 0] = .ok [⟨0xFF, 0x03, 2, [1]⟩] ∧
    payloadRanges 0 [2] = [(4, 2)] ∧ payloadRanges 0 [1] = [(4, 1)] := by
  decide +kernel

end S7Comm
