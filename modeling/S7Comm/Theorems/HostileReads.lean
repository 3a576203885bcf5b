import S7Comm.Theorems.PeerReads

/-! `ReadArea` against a peer that sends any bytes: it always returns a result, never more data than was requested, and
    the result is a success exactly when every chunk was answered in full. -/

namespace S7Comm
open Go

/-! ### Results that end a read early -/

theorem classifyOpError_ne_success (err : GoError) : classifyOpError err ≠ .success := by
  unfold classifyOpError
  split_ifs <;> simp

/-- A result of a read that did not reach its end: it is no success, and its lengths are those of its data. -/
structure Unfinished (reqLen : Nat) (out : ReadResult) : Prop where
  status : out.status ≠ .success
  requested : out.requestedLength = reqLen
  returned : out.returnedLength = out.data.length

theorem unfinished_newFailedReadResult (reqLen : Nat) (err : GoError) :
    Unfinished reqLen (newFailedReadResult reqLen err) := ⟨classifyOpError_ne_success err, rfl, rfl⟩

/-- What `readAnswer` takes is the payload of the first item, within the chunk. -/
theorem readAnswer_eq_taken {reqLen : Nat} {result : Bytes} {n : Nat} {param data payload : Bytes} :
    readAnswer reqLen result n param data = .ok (.ok payload) ↔
      ∃ item items, parseReadVarResponse param data = .ok (item :: items) ∧ item.returnCode = retCodeSuccess ∧
        item.data = payload ∧ payload.length ≤ n := by
  have hcases := readAnswer_cases reqLen result n param data
  generalize readAnswer reqLen result n param data = r at hcases
  cases hcases with
  | crashed hparse => simp [hparse]
  | ended _ _ _ _ _ huntaken =>
    refine iff_of_false nofun ?_
    rintro ⟨item, items, hparse, hcode, rfl, hle⟩
    exact huntaken item items hparse ⟨hcode, hle⟩
  | taken hparse hcode hle =>
    constructor
    · rintro ⟨⟩
      exact ⟨_, _, hparse, hcode, rfl, hle⟩
    · rintro ⟨item, items, hparse', -, rfl, -⟩
      cases hparse.symm.trans hparse'
      rfl

/-- The results that `readAnswer` ends a read with: all of them carry what was read before. -/
theorem readAnswer_error {reqLen : Nat} {result : Bytes} {n : Nat} {param data : Bytes} {out : ReadResult}
    (h : readAnswer reqLen result n param data = .ok (.error out)) :
    out.requestedLength = reqLen ∧ out.returnedLength = result.length ∧ out.data = result ∧
      (out.status = .emptyRead ∧ parseReadVarResponse param data = .ok [] ∨
        out.status = .protocolErr ∨ out.status = .rejected) := by
  have hcases := readAnswer_cases reqLen result n param data
  rw [h] at hcases
  cases hcases with
  | ended hrequested hreturned hdata hstatus => exact ⟨hrequested, hreturned, hdata, hstatus⟩

theorem readAnswer_unfinished {reqLen : Nat} {result : Bytes} {n : Nat} {param data : Bytes} {out : ReadResult}
    (h : readAnswer reqLen result n param data = .ok (.error out)) : Unfinished reqLen out := by
  obtain ⟨hrequested, hreturned, hdata, hstatus⟩ := readAnswer_error h
  refine ⟨?_, hrequested, by rw [hreturned, hdata]⟩
  rcases hstatus with ⟨hstatus, -⟩ | hstatus | hstatus <;> simp [hstatus]

/-- The exchange of one chunk: its request is sent, and these are the sections of the answer. -/
def ReadExchange {σ : Type} (net : Net σ) (addr : Address) (first : Bool) (offset n : Nat) (st : Client × σ)
    (param data : Bytes) (st' : Client × σ) : Prop :=
  ∃ st₁ ref st₂ req, chunkGate net first st = (.ok (), st₁) ∧ nextPDURef st₁ = (.ok ref, st₂) ∧
    encodeReadVarRequest ref [⟨addr.area, addr.dbNumber, offset, n⟩] = .ok req ∧
    sendReceive net req ref st₂ = (.ok (param, data), st')

/-- A chunk that returns has failed, or its request was sent and `readAnswer` looked at the sections of the answer. -/
theorem readChunk_cases {σ : Type} {net : Net σ} {addr : Address} {reqLen : Nat} {first : Bool} {offset : Nat}
    {result : Bytes} {n : Nat} {st st' : Client × σ} {r : Except ReadResult Bytes}
    (h : readChunk net addr reqLen first offset result n st = (.ok r, st')) :
    (∃ e, r = .error (newFailedReadResult reqLen e)) ∨
      ∃ param data, ReadExchange net addr first offset n st param data st' ∧
        readAnswer reqLen result n param data = .ok r := by
  unfold readChunk at h
  obtain ⟨gate, st₁, hgate, h⟩ := Eff.bind_eq_ok.mp h
  rcases Eff.attempt_eq_ok hgate with ⟨⟨⟩, rfl, hpassed⟩ | ⟨e, rfl, -⟩
  swap
  · cases h
    exact .inl ⟨e, rfl⟩
  dsimp only at h
  obtain ⟨ref, st₂, href, h⟩ := Eff.bind_eq_ok.mp h
  cases hreq : encodeReadVarRequest ref [⟨addr.area, addr.dbNumber, offset, n⟩] with
  | panic =>
    rw [hreq] at h
    cases h
  | fail e =>
    rw [hreq] at h
    cases h
  | ok req =>
    rw [hreq] at h
    dsimp only at h
    obtain ⟨answer, st₃, hsend, h⟩ := Eff.bind_eq_ok.mp h
    rcases Eff.attempt_eq_ok hsend with ⟨⟨param, data⟩, rfl, hanswered⟩ | ⟨e, rfl, -⟩
    · obtain ⟨hanswer, rfl⟩ := Prod.mk.inj h
      exact .inr ⟨param, data, ⟨st₁, ref, st₂, req, hpassed, href, hreq, hanswered⟩, hanswer⟩
    · cases h
      exact .inl ⟨e, rfl⟩

theorem readChunk_unfinished {σ : Type} {net : Net σ} {addr : Address} {reqLen : Nat} {first : Bool} {offset : Nat}
    {result : Bytes} {n : Nat} {st st' : Client × σ} {out : ReadResult}
    (h : readChunk net addr reqLen first offset result n st = (.ok (.error out), st')) : Unfinished reqLen out := by
  rcases readChunk_cases h with ⟨e, hfailed⟩ | ⟨param, data, -, hanswer⟩
  · cases hfailed
    exact unfinished_newFailedReadResult reqLen e
  · exact readAnswer_unfinished hanswer

/-! ### Full answers -/

/-- The turn answers its chunk of `n` bytes in full: the exchange gives a Read Var response whose first item has the
    return code of success and these `n` bytes. -/
def Turn.Full (t : Turn) (c : Client) (first : Bool) (ref : UInt16) (n : Nat) (payload : Bytes) : Prop :=
  payload.length = n ∧ ¬t.stopped c first ∧
    ∃ pdu param data item items, t.delivered c = some pdu ∧ responseSections pdu ref = .ok (param, data) ∧
      parseReadVarResponse param data = .ok (item :: items) ∧ item.returnCode = retCodeSuccess ∧ item.data = payload

/-- Every chunk is answered in full, by these payloads. -/
def FullAnswers (c : Client) : (chunks : List Nat) → (first : Bool) → List Turn → List Bytes → Prop
  | [], _, _, payloads => payloads = []
  | n :: chunks, first, turns, payloads =>
    ∃ payload rest, payloads = payload :: rest ∧
      (turns.headD .lost).Full c first (nextPDURefFrom c.pduRef).1 n payload ∧
      FullAnswers { c with pduRef := (nextPDURefFrom c.pduRef).2 } chunks false turns.tail rest

theorem Turn.full_iff {t : Turn} {c : Client} {first : Bool} {ref : UInt16} {n : Nat} {payload : Bytes} :
    t.Full c first ref n payload ↔ t.fate c first ref n = .taken payload ∧ payload.length = n := by
  constructor
  · rintro ⟨hlen, hstop, pdu, param, data, item, items, hpdu, hsections, hparse, hcode, rfl⟩
    refine ⟨?_, hlen⟩
    simp only [Turn.fate, if_neg hstop, hpdu, answerFate, hsections, sectionsFate, hparse]
    exact if_pos ⟨returnCodeError_eq_none.mpr hcode, hlen.le⟩
  · rintro ⟨hfate, hlen⟩
    unfold Turn.fate at hfate
    by_cases hstop : t.stopped c first
    · rw [if_pos hstop] at hfate
      cases hfate
    rw [if_neg hstop] at hfate
    cases hpdu : t.delivered c with
    | none =>
      rw [hpdu] at hfate
      cases hfate
    | some pdu =>
      rw [hpdu] at hfate
      dsimp only [answerFate] at hfate
      cases hsections : responseSections pdu ref with
      | fail e =>
        rw [hsections] at hfate
        cases hfate
      | panic =>
        rw [hsections] at hfate
        cases hfate
      | ok sections =>
        obtain ⟨param, data⟩ := sections
        rw [hsections] at hfate
        dsimp only [sectionsFate] at hfate
        split at hfate
        · rename_i item items hparse
          split_ifs at hfate with htaken
          cases hfate
          exact ⟨hlen, hstop, pdu, param, data, item, items, hpdu, hsections, hparse,
            returnCodeError_eq_none.mp htaken.1, rfl⟩
        · cases hfate
        · cases hfate

/-! ### The chunk loop -/

/-- What a result says about the chunks still to be read, with `result` read before them. -/
structure ReadEnd (reqLen : Nat) (result : Bytes) (c : Client) (chunks : List Nat) (first : Bool) (turns : List Turn)
    (out : ReadResult) : Prop where
  requested : out.requestedLength = reqLen
  returned : out.returnedLength = out.data.length
  within : out.data.length ≤ reqLen
  success : out.status = .success ↔
    result.length + chunks.sum = reqLen ∧ ∃ payloads, FullAnswers c chunks first turns payloads
  data : ∀ payloads, FullAnswers c chunks first turns payloads → out.data = result ++ payloads.flatten

/-- A chunk whose turn does not give it a payload ends the read. -/
theorem readEnd_unfinished {reqLen : Nat} {result : Bytes} {c : Client} {n : Nat} {chunks : List Nat} {first : Bool}
    {turns : List Turn} {out : ReadResult} (hout : Unfinished reqLen out) (hwithin : out.data.length ≤ reqLen)
    (hfate : ∀ payload, (turns.headD .lost).fate c first (nextPDURefFrom c.pduRef).1 n ≠ .taken payload) :
    ReadEnd reqLen result c (n :: chunks) first turns out := by
  have hnone : ∀ payloads, ¬FullAnswers c (n :: chunks) first turns payloads := by
    rintro payloads ⟨payload, rest, -, hfull, -⟩
    exact hfate payload (Turn.full_iff.mp hfull).1
  refine ⟨hout.requested, hout.returned, hwithin, ⟨fun h => absurd h hout.status, ?_⟩, fun payloads h => ?_⟩
  · rintro ⟨-, payloads, h⟩
    exact absurd h (hnone payloads)
  · exact absurd h (hnone payloads)

/-- A chunk that is taken in full leaves what the rest of the loop returns; one that is taken short leaves a result
    that cannot be a success any more. -/
theorem ReadEnd.cons {reqLen : Nat} {result : Bytes} {c : Client} {n : Nat} {chunks : List Nat} {first : Bool}
    {turns : List Turn} {out : ReadResult} {payload : Bytes} (hle : payload.length ≤ n)
    (hsum : result.length + (n + chunks.sum) ≤ reqLen)
    (hfate : (turns.headD .lost).fate c first (nextPDURefFrom c.pduRef).1 n = .taken payload)
    (h : ReadEnd reqLen (result ++ payload) { c with pduRef := (nextPDURefFrom c.pduRef).2 } chunks false turns.tail
      out) :
    ReadEnd reqLen result c (n :: chunks) first turns out := by
  have hfull : ∀ payload', (turns.headD .lost).Full c first (nextPDURefFrom c.pduRef).1 n payload' ↔
      payload = payload' ∧ payload.length = n := by
    intro payload'
    rw [Turn.full_iff, hfate, Fate.taken.injEq]
    exact ⟨fun ⟨e, hl⟩ => ⟨e, e ▸ hl⟩, fun ⟨e, hl⟩ => ⟨e, e ▸ hl⟩⟩
  refine ⟨h.requested, h.returned, h.within, h.success.trans ?_, ?_⟩
  · rw [List.length_append, List.sum_cons]
    constructor
    · rintro ⟨hall, payloads, hrest⟩
      exact ⟨by omega, payload :: payloads, payload, payloads, rfl, (hfull payload).mpr ⟨rfl, by omega⟩, hrest⟩
    · rintro ⟨hall, payloads, payload', rest, -, hhead, hrest⟩
      obtain ⟨rfl, hlen⟩ := (hfull payload').mp hhead
      exact ⟨by omega, rest, hrest⟩
  · rintro payloads ⟨payload', rest, rfl, hhead, hrest⟩
    obtain ⟨rfl, -⟩ := (hfull payload').mp hhead
    rw [h.data rest hrest, List.flatten_cons, List.append_assoc]

theorem readOutcome_end {reqLen : Nat} {result : Bytes} (hle : result.length ≤ reqLen) (c : Client) (first : Bool)
    (turns : List Turn) : ReadEnd reqLen result c [] first turns (readOutcome reqLen result) := by
  refine ⟨rfl, rfl, hle, ?_, ?_⟩
  · have hstatus : classifyReadOutcome reqLen result.length = .success ↔ result.length = reqLen := by
      unfold classifyReadOutcome
      split_ifs <;> simp <;> omega
    exact hstatus.trans ⟨fun h => ⟨h, [], rfl⟩, fun h => h.1⟩
  · rintro payloads rfl
    exact (List.append_nil result).symm

/-- The chunk loop returns, and its result says how its chunks were answered. -/
theorem readChunks_end {addr : Address} {db : Nat} (hdb : addr.dbNumber = db) (hdble : db ≤ 65535) {chunks : List Nat}
    (hall : ∀ n ∈ chunks, 0 < n ∧ n ≤ 65535) (offset : Nat) (hend : offset + chunks.sum ≤ maxS7AnyByteOffset + 1)
    {reqLen : Nat} (first : Bool) (result : Bytes) (hsum : result.length + chunks.sum ≤ reqLen) (c : Client)
    (turns : List Turn) (hpdus : ∀ t ∈ turns, ∀ pdu, t.answer = .ok pdu → pdu.length ≤ 65535) :
    ∃ out st, readChunks peerNet addr reqLen chunks first offset result (c, { turns }) = (.ok out, st) ∧
      ReadEnd reqLen result c chunks first turns out := by
  induction chunks generalizing offset first result c turns with
  | nil => exact ⟨_, _, rfl, readOutcome_end hsum c first turns⟩
  | cons n chunks ih =>
    obtain ⟨⟨hpos, hn⟩, hrest⟩ := List.forall_mem_cons.mp hall
    rw [List.sum_cons] at hend hsum
    have hstep := readChunk_peer hdb hdble (show offset ≤ maxS7AnyByteOffset by omega) hn reqLen first result c turns
    have hfate := Turn.fate_ne_crashed (headD_answer hpdus) c first (nextPDURefFrom c.pduRef).1 n
    unfold readChunks
    generalize hf : (turns.headD .lost).fate c first (nextPDURefFrom c.pduRef).1 n = fate at hstep hfate
    generalize hchunk : readChunk peerNet addr reqLen first offset result n (c, { turns }) = r at hstep
    cases hstep with
    | failed =>
      refine ⟨_, _, Eff.bind_ok hchunk, readEnd_unfinished (unfinished_newFailedReadResult reqLen _) ?_ ?_⟩
      · exact Nat.zero_le _
      · rw [hf]
        simp
    | ended hdata =>
      refine ⟨_, _, Eff.bind_ok hchunk, readEnd_unfinished (readChunk_unfinished hchunk) ?_ ?_⟩
      · rw [hdata]
        omega
      · rw [hf]
        simp
    | crashed => exact absurd rfl hfate
    | @taken payload hle =>
      obtain ⟨out, st, hrun, hout⟩ := ih hrest (offset + n) (by omega) false (result ++ payload)
        (by rw [List.length_append]; omega) { c with pduRef := (nextPDURefFrom c.pduRef).2 } turns.tail
        (fun t ht => hpdus t (List.mem_of_mem_tail ht))
      exact ⟨out, st, (Eff.bind_ok hchunk).trans hrun, hout.cons hle hsum hf⟩

/-! ### ReadArea -/

/-- Every chunk of a valid address can be asked for. -/
theorem encodeReadVarRequest_chunk {addr : Address} (hvalid : validateAddress addr = .ok ())
    (hrange : validateRangeEnd addr.start addr.size = .ok ()) {maxChunk : Nat} (hpos : 0 < maxChunk)
    (hmax : maxChunk ≤ 65535) {pre post : List Nat} {n : Nat}
    (hplan : planReadChunks addr.size.toNat maxChunk = pre ++ n :: post) (ref : UInt16) :
    ∃ req, encodeReadVarRequest ref [⟨addr.area, addr.dbNumber, (addr.start.toNat + pre.sum : Nat), n⟩] = .ok req := by
  obtain ⟨db, start, size, hdb, hstart, hsize, hdble⟩ := validateAddress_ok hvalid
  have hlast := validateRangeEnd_ok hrange
  obtain ⟨hsum, hall⟩ := planReadChunks_spec addr.size.toNat hpos
  obtain ⟨hn, hle⟩ := hall n (by rw [hplan]; simp)
  rw [hplan, List.sum_append, List.sum_cons] at hsum
  have haddr : Addressable db (addr.start.toNat + pre.sum) n := ⟨hdble, by omega, Nat.le_trans hle hmax⟩
  rw [hdb]
  exact ⟨_, encodeReadVarRequest_eq ref haddr⟩

/-- Against a peer that answers with any TSDUs of at most 65535 bytes, or not at all, `ReadArea` on a valid address
    returns a result and no error: each of its requests can be encoded, the data is never more than was requested, and
    the status is success exactly when every planned chunk was answered in full, by payloads whose concatenation
    is the data. -/
theorem read_area_hostile_peer (addr : Address) (c : Client) (turns : List Turn) (hp : c.pduSize ≤ 65535)
    (hvalid : validateAddress addr = .ok ()) (hrange : validateRangeEnd addr.start addr.size = .ok ())
    (hpdus : ∀ t ∈ turns, ∀ pdu, t.answer = .ok pdu → pdu.length ≤ 65535) :
    let chunks := planReadChunks addr.size.toNat (maxChunkData c.pduSize readVarRequestOverhead)
    (∀ (pre post : List Nat) (n : Nat) (ref : UInt16), chunks = pre ++ n :: post →
      ∃ req, encodeReadVarRequest ref [⟨addr.area, addr.dbNumber, (addr.start.toNat + pre.sum : Nat), n⟩] = .ok req) ∧
    ∃ out st, readArea peerNet addr (c, { turns }) = (.ok out, st) ∧
      out.data.length = out.returnedLength ∧ out.returnedLength ≤ out.requestedLength ∧
      (out.requestedLength : Int) = addr.size ∧
      (out.status = .success ↔ ∃ payloads, FullAnswers c chunks true turns payloads) ∧
      ∀ payloads, FullAnswers c chunks true turns payloads → out.data = payloads.flatten := by
  intro chunks
  obtain ⟨db, start, size, hdb, hstart, hsize, hdble⟩ := validateAddress_ok hvalid
  have hlast := validateRangeEnd_ok hrange
  have hpos := maxChunkData_pos c.pduSize readVarRequestOverhead
  have hmax := maxChunkData_le hp readVarRequestOverhead
  obtain ⟨hsum, hall⟩ := planReadChunks_spec addr.size.toNat hpos
  refine ⟨fun pre post n ref hplan => encodeReadVarRequest_chunk hvalid hrange hpos hmax hplan ref, ?_⟩
  obtain ⟨out, st, hrun, hout⟩ := readChunks_end hdb hdble
    (fun n hn => ⟨(hall n hn).1, Nat.le_trans (hall n hn).2 hmax⟩) addr.start.toNat (by omega) true []
    (Nat.le_of_eq (by rw [List.length_nil, Nat.zero_add, hsum])) c turns hpdus
  refine ⟨out, st, ?_, hout.returned.symm, ?_, by rw [hout.requested]; omega, ?_, hout.data⟩
  · unfold readArea
    rw [hvalid, Eff.bind_ok (Eff.lift_apply _ _), hrange, Eff.bind_ok (Eff.lift_apply _ _),
      Eff.bind_ok (Eff.get_apply _)]
    exact hrun
  · rw [hout.returned, hout.requested]
    exact hout.within
  · exact hout.success.trans ⟨fun h => h.2, fun h => ⟨by rw [List.length_nil, Nat.zero_add, hsum], h⟩⟩

/-- Two chunks answered in full. -/
theorem read_area_hostile_peer_full :
    ∃ out st, readArea peerNet ⟨areaDB, 1, 0, 4⟩
        (smallClient, { turns := [byteTurn 1 [0x11, 0x12], byteTurn 2 [0x22, 0x33]] }) = (.ok out, st) ∧
      out.status = .success ∧ out.data = [0x11, 0x12, 0x22, 0x33] := by
  obtain ⟨-, out, st, hread, -, -, -, hsuccess, hdata⟩ := read_area_hostile_peer ⟨areaDB, 1, 0, 4⟩ smallClient
    [byteTurn 1 [0x11, 0x12], byteTurn 2 [0x22, 0x33]] (by decide) rfl rfl (by
      intro t ht pdu hpdu
      simp only [List.mem_cons, List.not_mem_nil, or_false] at ht
      rcases ht with rfl | rfl <;> cases hpdu <;> decide)
  have hplan : planReadChunks 4 (maxChunkData 26 readVarRequestOverhead) = [2, 2] := by decide +kernel
  have hfull : FullAnswers smallClient (planReadChunks 4 (maxChunkData 26 readVarRequestOverhead)) true
      [byteTurn 1 [0x11, 0x12], byteTurn 2 [0x22, 0x33]] [[0x11, 0x12], [0x22, 0x33]] := by
    rw [hplan]
    exact ⟨_, _, rfl, Turn.full_iff.mpr (by decide +kernel), _, _, rfl, Turn.full_iff.mpr (by decide +kernel), rfl⟩
  exact ⟨out, st, hread, hsuccess.mpr ⟨_, hfull⟩, hdata _ hfull⟩

end S7Comm
