import S7Comm.Client.Peer
import S7Comm.Theorems.AnswerBounds
import S7Comm.Theorems.LinkBase

/-! `ReadArea` against any peer: it returns the pieces it took, end to end. They are requested at offsets that advance
    by the planned sizes and joined by their actual lengths, so the data is at its addresses exactly when no short
    piece is followed by more. -/

namespace S7Comm
open Go

/-! ### One chunk -/

section Turn
variable {turns : List Turn} {t : Turn} (ht : turns.headD .lost = t) (c : Client)
include ht

theorem chunkGate_peer (first : Bool) :
    t.stopped c first ∧ (∃ e, chunkGate peerNet first (c, { turns }) = (.fail e, (c, { turns }))) ∨
      ¬t.stopped c first ∧ chunkGate peerNet first (c, { turns }) = (.ok (), (c, { turns })) := by
  have hctx : peerNet.ctxErr { turns } = (t.ctxErr, { turns }) := by rw [← ht]; rfl
  have hwait : peerNet.wait { turns } = (t.waitErr, { turns }) := by rw [← ht]; rfl
  unfold chunkGate Turn.stopped
  cases hc : t.ctxErr with
  | some e =>
    rw [hc] at hctx
    exact .inl ⟨.inl rfl, e, Eff.bind_fail (by simp only [netErr, hctx])⟩
  | none =>
    rw [hc] at hctx
    rw [Eff.bind_ok (show netErr peerNet.ctxErr (c, { turns }) = (.ok (), (c, { turns })) by simp only [netErr, hctx]),
      Eff.bind_ok (Eff.get_apply _)]
    dsimp only
    by_cases hrate : c.rateLimit > 0 ∧ !first
    · rw [if_pos hrate]
      cases hw : t.waitErr with
      | some e =>
        rw [hw] at hwait
        exact .inl ⟨.inr ⟨hrate.1, hrate.2, rfl⟩, e, by simp only [netErr, hwait]⟩
      | none =>
        rw [hw] at hwait
        exact .inr ⟨by simp, by simp only [netErr, hwait]⟩
    · rw [if_neg hrate]
      refine .inr ⟨?_, rfl⟩
      rintro (h | ⟨h₁, h₂, -⟩)
      · cases h
      · exact hrate ⟨h₁, h₂⟩

theorem sendReceive_peer {req : Bytes} (hlen : req.length = readVarRequestOverhead) (ref : UInt16) :
    t.delivered c = none ∧ (∃ e w, sendReceive peerNet req ref (c, { turns }) = (.fail e, (c, w))) ∨
      ∃ pdu, t.delivered c = some pdu ∧
        sendReceive peerNet req ref (c, { turns }) = (responseSections pdu ref, (c, { turns := turns.tail })) := by
  have hwrite : peerNet.writeTSDU req { turns } = (t.writeErr, { turns, sent := true }) := by
    rw [← ht]
    rfl
  have hctx : peerNet.ctxErr { turns, sent := true } = (t.lateErr, { turns, sent := true }) := by
    rw [← ht]
    rfl
  have hread : peerNet.readTSDU { turns, sent := true } = (t.answer, { turns := turns.tail }) := by
    rw [← ht]
    rfl
  unfold Turn.delivered
  by_cases hsent : c.connected = true ∧ ¬(c.pduSize > 0 ∧ req.length > c.pduSize)
  swap
  · obtain ⟨e, -, hunsent⟩ : ∃ e, _ ∧ sendReceive peerNet req ref (c, { turns }) = (.fail e, (c, { turns })) :=
      sendReceive_unsent hsent
    rw [hlen, not_and_or, not_not, Bool.not_eq_true, ← Bool.not_eq_true'] at hsent
    rw [if_pos hsent]
    exact .inl ⟨rfl, e, _, hunsent⟩
  obtain ⟨hconn, hfit⟩ := hsent
  rw [if_neg (by rw [← hlen]; simp [hconn, hfit])]
  cases hw : t.writeErr with
  | some e =>
    rw [hw] at hwrite
    exact .inl ⟨rfl, e, _, sendReceive_write_fail hconn hfit hwrite⟩
  | none =>
    rw [hw] at hwrite
    cases hl : t.lateErr with
    | some e =>
      rw [hl] at hctx
      exact .inl ⟨rfl, e, _, sendReceive_ctx_fail hconn hfit hwrite hctx⟩
    | none =>
      rw [hl] at hctx
      cases ha : t.answer with
      | error e =>
        rw [ha] at hread
        exact .inl ⟨rfl, e, _, sendReceive_read_fail hconn hfit hwrite hctx hread⟩
      | ok pdu =>
        rw [ha] at hread
        exact .inr ⟨pdu, rfl, sendReceive_read hconn hfit hwrite hctx hread⟩

end Turn

/-! ### Answers -/

theorem returnCodeError_eq_none {code : UInt8} : returnCodeError code = none ↔ code = retCodeSuccess := by
  unfold returnCodeError
  split_ifs with h <;> simp [h]

/-- What `readAnswer` makes of the items of an answer. -/
inductive AnswerEnds (reqLen : Nat) (result : Bytes) (n : Nat) (items : Res (List ReadVarItem)) :
    Res (Except ReadResult Bytes) → Prop
  | crashed (parse : items = .panic) : AnswerEnds reqLen result n items .panic
  | ended {out : ReadResult} (requested : out.requestedLength = reqLen) (returned : out.returnedLength = result.length)
      (data : out.data = result)
      (status : out.status = .emptyRead ∧ items = .ok [] ∨ out.status = .protocolErr ∨ out.status = .rejected)
      (parse : items ≠ .panic)
      (untaken : ∀ item rest, items = .ok (item :: rest) →
        ¬(item.returnCode = retCodeSuccess ∧ item.data.length ≤ n)) :
      AnswerEnds reqLen result n items (.ok (.error out))
  | taken {item : ReadVarItem} {rest : List ReadVarItem} (parse : items = .ok (item :: rest))
      (code : item.returnCode = retCodeSuccess) (within : item.data.length ≤ n) :
      AnswerEnds reqLen result n items (.ok (.ok item.data))

theorem readAnswer_cases (reqLen : Nat) (result : Bytes) (n : Nat) (param data : Bytes) :
    AnswerEnds reqLen result n (parseReadVarResponse param data) (readAnswer reqLen result n param data) := by
  unfold readAnswer
  cases parseReadVarResponse param data with
  | panic => exact .crashed rfl
  | fail e => exact .ended rfl rfl rfl (.inr (.inl rfl)) nofun nofun
  | ok items =>
    rcases items with _ | ⟨item, items⟩
    · exact .ended rfl rfl rfl (.inl ⟨rfl, rfl⟩) nofun nofun
    dsimp only
    cases hcode : returnCodeError item.returnCode with
    | some e =>
      refine .ended rfl rfl rfl (.inr (.inr rfl)) nofun ?_
      rintro _ _ ⟨⟩ ⟨hsuccess, -⟩
      rw [returnCodeError_eq_none.mpr hsuccess] at hcode
      cases hcode
    | none =>
      dsimp only
      split
      · rename_i hlong
        refine .ended rfl rfl rfl (.inr (.inl rfl)) nofun ?_
        rintro _ _ ⟨⟩ ⟨-, hle⟩
        exact Nat.not_lt.mpr hle hlong
      · rename_i hle
        exact .taken rfl (returnCodeError_eq_none.mp hcode) (Nat.not_lt.mp hle)

/-- What `readChunk` returns for each fate of its chunk. -/
inductive ChunkEnds (reqLen : Nat) (result : Bytes) (n : Nat) (next : Client × Peer) :
    Fate → Outcome GoError (Except ReadResult Bytes) × Client × Peer → Prop
  | failed {e : GoError} {st : Client × Peer} :
      ChunkEnds reqLen result n next .failed (.ok (.error (newFailedReadResult reqLen e)), st)
  | ended {out : ReadResult} {st : Client × Peer} (hdata : out.data = result) :
      ChunkEnds reqLen result n next .ended (.ok (.error out), st)
  | crashed {st : Client × Peer} : ChunkEnds reqLen result n next .crashed (.panic, st)
  | taken {payload : Bytes} (hle : payload.length ≤ n) :
      ChunkEnds reqLen result n next (.taken payload) (.ok (.ok payload), next)

theorem readAnswer_ends (reqLen : Nat) (result : Bytes) (n : Nat) (param data : Bytes) (next : Client × Peer) :
    ChunkEnds reqLen result n next (sectionsFate n param data) (readAnswer reqLen result n param data, next) := by
  have hcases := readAnswer_cases reqLen result n param data
  generalize readAnswer reqLen result n param data = r at hcases ⊢
  unfold sectionsFate
  cases hcases with
  | crashed hparse =>
    rw [hparse]
    exact .crashed
  | ended _ _ hdata _ hparse huntaken =>
    split
    · rename_i item items heq
      rw [if_neg fun h => huntaken item items heq ⟨returnCodeError_eq_none.mp h.1, h.2⟩]
      exact .ended hdata
    · rename_i heq
      exact absurd heq hparse
    · exact .ended hdata
  | taken hparse hcode hle =>
    rw [hparse]
    dsimp only
    rw [if_pos ⟨returnCodeError_eq_none.mpr hcode, hle⟩]
    exact .taken hle

section Chunks
variable {addr : Address} {db : Nat} (hdb : addr.dbNumber = db) (hdble : db ≤ 65535)
include hdb hdble

/-- A chunk ends as its turn says. -/
theorem readChunk_peer {offset n : Nat} (hoff : offset ≤ maxS7AnyByteOffset) (hn : n ≤ 65535) (reqLen : Nat)
    (first : Bool) (result : Bytes) (c : Client) (turns : List Turn) :
    ChunkEnds reqLen result n ({ c with pduRef := (nextPDURefFrom c.pduRef).2 }, { turns := turns.tail })
      ((turns.headD .lost).fate c first (nextPDURefFrom c.pduRef).1 n)
      (readChunk peerNet addr reqLen first offset result n (c, { turns })) := by
  have haddr : Addressable db offset n := ⟨hdble, hoff, hn⟩
  obtain ⟨t, ht⟩ : ∃ t, turns.headD .lost = t := ⟨_, rfl⟩
  unfold readChunk Turn.fate
  rw [ht]
  rcases chunkGate_peer ht c first with ⟨hstop, e, hgate⟩ | ⟨hstop, hgate⟩
  · rw [if_pos hstop, Eff.bind_ok (Eff.attempt_fail hgate)]
    exact .failed
  rw [if_neg hstop, Eff.bind_ok (Eff.attempt_ok hgate)]
  dsimp only
  rw [Eff.bind_ok (nextPDURef_apply c _), hdb, encodeReadVarRequest_eq _ haddr]
  dsimp only
  rcases sendReceive_peer ht { c with pduRef := (nextPDURefFrom c.pduRef).2 } (length_readRequest _) _ with
    ⟨hnone, e, w, hsend⟩ | ⟨pdu, hsome, hsend⟩
  · rw [show t.delivered c = none from hnone, Eff.bind_ok (Eff.attempt_fail hsend)]
    exact .failed
  · rw [show t.delivered c = some pdu from hsome]
    dsimp only
    unfold answerFate
    cases hsections : responseSections pdu (nextPDURefFrom c.pduRef).1 with
    | fail e =>
      rw [hsections] at hsend
      rw [Eff.bind_ok (Eff.attempt_fail hsend)]
      exact .failed
    | panic =>
      rw [hsections] at hsend
      rw [Eff.bind_panic (Eff.attempt_panic hsend)]
      exact .crashed
    | ok sections =>
      obtain ⟨param, data⟩ := sections
      rw [hsections] at hsend
      rw [Eff.bind_ok (Eff.attempt_ok hsend)]
      exact readAnswer_ends reqLen result n param data _

omit hdb hdble in
theorem takings_cons (c : Client) (n : Nat) (chunks : List Nat) (first : Bool) (offset : Nat) (turns : List Turn) :
    takings c (n :: chunks) first offset turns =
      match (turns.headD .lost).fate c first (nextPDURefFrom c.pduRef).1 n with
      | .taken payload =>
        let rest := takings { c with pduRef := (nextPDURefFrom c.pduRef).2 } chunks false (offset + n) turns.tail
        (⟨offset, n, payload⟩ :: rest.1, rest.2)
      | fate => ([], fate) := rfl

/-- The chunk loop returns the pieces of its takings after what was read before, unless it fails. -/
theorem readChunks_peer {chunks : List Nat} (hall : ∀ n ∈ chunks, 0 < n ∧ n ≤ 65535) (offset : Nat)
    (hend : offset + chunks.sum ≤ maxS7AnyByteOffset + 1) (reqLen : Nat) (first : Bool) (result : Bytes) (c : Client)
    (turns : List Turn) :
    Tiled offset (takings c chunks first offset turns).1 ∧
      ((takings c chunks first offset turns).2 = .crashed ∧
          (∃ st, readChunks peerNet addr reqLen chunks first offset result (c, { turns }) = (.panic, st)) ∨
        (takings c chunks first offset turns).2 ≠ .crashed ∧
          ∃ out st, readChunks peerNet addr reqLen chunks first offset result (c, { turns }) = (.ok out, st) ∧
            out.data = if (takings c chunks first offset turns).2 = .failed then []
              else result ++ joined (takings c chunks first offset turns).1) := by
  induction chunks generalizing offset first result c turns with
  | nil => exact ⟨trivial, .inr ⟨by simp [takings], _, _, rfl, by simp [takings, readOutcome]⟩⟩
  | cons n chunks ih =>
    obtain ⟨⟨hpos, hn⟩, hrest⟩ := List.forall_mem_cons.mp hall
    rw [List.sum_cons] at hend
    have hstep := readChunk_peer hdb hdble (show offset ≤ maxS7AnyByteOffset by omega) hn reqLen first result c turns
    rw [takings_cons]
    unfold readChunks
    generalize (turns.headD .lost).fate c first (nextPDURefFrom c.pduRef).1 n = fate at hstep ⊢
    generalize hchunk : readChunk peerNet addr reqLen first offset result n (c, { turns }) = r at hstep
    cases hstep with
    | failed => exact ⟨trivial, .inr ⟨by simp, _, _, Eff.bind_ok hchunk, rfl⟩⟩
    | ended hdata => exact ⟨trivial, .inr ⟨by simp, _, _, Eff.bind_ok hchunk, by simpa using hdata⟩⟩
    | crashed => exact ⟨trivial, .inl ⟨rfl, _, Eff.bind_panic hchunk⟩⟩
    | @taken payload hle =>
      obtain ⟨htiled, hrun⟩ := ih hrest (offset + n) (by omega) false (result ++ payload)
        { c with pduRef := (nextPDURefFrom c.pduRef).2 } turns.tail
      refine ⟨⟨rfl, hle, htiled⟩, ?_⟩
      rw [Eff.bind_ok hchunk, joined_cons, ← List.append_assoc]
      exact hrun

end Chunks

/-! ### Answers of at most 65535 bytes -/

theorem Turn.fate_ne_crashed {t : Turn} (h : ∀ pdu, t.answer = .ok pdu → pdu.length ≤ 65535) (c : Client) (first : Bool)
    (ref : UInt16) (n : Nat) : t.fate c first ref n ≠ .crashed := by
  unfold Turn.fate
  split
  · simp
  cases hpdu : t.delivered c with
  | none => simp
  | some pdu =>
    have hanswer : t.answer = .ok pdu := by
      unfold Turn.delivered at hpdu
      split_ifs at hpdu
      cases ha : t.answer with
      | error e => simp [ha, Except.toOption] at hpdu
      | ok pdu' => simpa [ha, Except.toOption] using hpdu
    dsimp only
    unfold answerFate
    cases hsections : responseSections pdu ref with
    | fail e => simp
    | panic => exact absurd hsections (responseSections_ne_panic (h pdu hanswer) ref)
    | ok sections =>
      dsimp only
      unfold sectionsFate
      have hparse := parseReadVarResponse_ne_panic sections.1 sections.2
      split
      · split <;> simp
      · rename_i heq
        exact absurd heq hparse
      · simp

theorem headD_answer {turns : List Turn} (h : ∀ t ∈ turns, ∀ pdu, t.answer = .ok pdu → pdu.length ≤ 65535) :
    ∀ pdu, (turns.headD .lost).answer = .ok pdu → pdu.length ≤ 65535 := by
  cases turns with
  | nil => simp [Turn.lost]
  | cons t turns => exact h t List.mem_cons_self

theorem takings_ne_crashed {turns : List Turn} (h : ∀ t ∈ turns, ∀ pdu, t.answer = .ok pdu → pdu.length ≤ 65535)
    (c : Client) (chunks : List Nat) (first : Bool) (offset : Nat) :
    (takings c chunks first offset turns).2 ≠ .crashed := by
  induction chunks generalizing c first offset turns with
  | nil => simp [takings]
  | cons n chunks ih =>
    have hfate := Turn.fate_ne_crashed (headD_answer h) c first (nextPDURefFrom c.pduRef).1 n
    rw [takings_cons]
    split
    · exact ih (fun t ht => h t (List.mem_of_mem_tail ht)) _ _ _
    · exact hfate

/-! ### ReadArea -/

/-- `ReadArea` returns its takings end to end, and nothing when it fails. -/
theorem readArea_peer {addr : Address} {c : Client} (hp : c.pduSize ≤ 65535) (hvalid : validateAddress addr = .ok ())
    (hrange : validateRangeEnd addr.start addr.size = .ok ()) (turns : List Turn) :
    Tiled addr.start.toNat (readTakings addr c turns).1 ∧
      ((readTakings addr c turns).2 = .crashed ∧ (∃ st, readArea peerNet addr (c, { turns }) = (.panic, st)) ∨
        (readTakings addr c turns).2 ≠ .crashed ∧
          ∃ out st, readArea peerNet addr (c, { turns }) = (.ok out, st) ∧
            out.data = if (readTakings addr c turns).2 = .failed then [] else joined (readTakings addr c turns).1) := by
  obtain ⟨db, start, size, hdb, hstart, hsize, hdble⟩ := validateAddress_ok hvalid
  have hlast := validateRangeEnd_ok hrange
  have hchunk := maxChunkData_le hp readVarRequestOverhead
  obtain ⟨hsum, hall⟩ := planReadChunks_spec addr.size.toNat (maxChunkData_pos c.pduSize readVarRequestOverhead)
  unfold readArea
  rw [hvalid, Eff.bind_ok (Eff.lift_apply _ _), hrange, Eff.bind_ok (Eff.lift_apply _ _), Eff.bind_ok (Eff.get_apply _)]
  exact readChunks_peer hdb hdble (fun n hn => ⟨(hall n hn).1, Nat.le_trans (hall n hn).2 hchunk⟩) addr.start.toNat
    (by omega) addr.size.toNat true [] c turns

/-- A client with a PDU size of 26, which reads in chunks of two bytes. -/
def smallClient : Client := ⟨true, 26, 0, 0⟩

/-- The turn of a peer that answers reference `ref` with these bytes. -/
def byteTurn (ref : UInt16) (data : Bytes) : Turn where
  answer := .ok (ackData ref 0 0 [funcReadVar, 1]
    (readVarResultBytes [⟨retCodeSuccess, dataTransportSizeByte, UInt16.ofNat (data.length * 8), data⟩]))

end S7Comm
