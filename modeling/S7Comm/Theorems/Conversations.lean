import S7Comm.Lib.Series
import S7Comm.Theorems.Frames

/-! Conversations. Reading is total: no file makes it panic. The two directions of a connection are merged by the frames
    that completed their PDUs, which keeps the order of a direction exactly when its frames are in that order. -/

namespace S7Comm.Capture
open Go

/-! ### Lists -/

/-- A stable sort keeps the order of those that are selected exactly when they are sorted. -/
theorem filter_insertionSort_iff {α : Type} (r : α → α → Prop) [DecidableRel r] [Std.Total r] [IsTrans α r] (p : α → Bool)
    (l : List α) : (l.insertionSort r).filter p = l.filter p ↔ (l.filter p).Pairwise r := by
  constructor
  · intro h
    rw [← h]
    exact (List.pairwise_insertionSort r l).sublist List.filter_sublist
  · intro h
    have hsub : (l.filter p).Sublist (l.insertionSort r) := List.sublist_insertionSort h List.filter_sublist
    have hsub' : (l.filter p).Sublist ((l.insertionSort r).filter p) := by
      have := hsub.filter p
      rwa [List.filter_filter, funext fun x => Bool.and_self (p x)] at this
    have hlen : ((l.insertionSort r).filter p).length = (l.filter p).length :=
      ((List.perm_insertionSort r l).filter p).length_eq
    exact (hsub'.eq_of_length hlen.symm).symm

/-! ### Splitting stays in bounds -/

section Bounds
variable {c : Chunk} {off n : Nat}

/-- Where a round of `stream` cuts a payload, `next - start` is an offset of it, and what is appended is the slice from
    there on. -/
theorem deliver_slice {base : UInt32} {a : Assembly} {s : Segment}
    (hnew : a.next < seqDiff s.seq base + s.payload.length) (hold : seqDiff s.seq base ≤ a.next) :
    ∃ lo : Nat, (lo : Int) = a.next - seqDiff s.seq base ∧ ∃ p, sliceOf s.payload lo s.payload.length = .ok p ∧
      a.deliver base s = { a with cur := a.cur.append p s.frame, next := seqDiff s.seq base + s.payload.length } := by
  refine ⟨(a.next - seqDiff s.seq base).toNat, Int.toNat_of_nonneg (by omega), _,
    sliceOf_of_le (by omega) (Nat.le_refl _), ?_⟩
  unfold Assembly.deliver
  rw [if_neg (by omega), if_neg (by omega), List.take_of_length_le (by rw [List.length_drop])]

theorem takeTPDU_ne_panic (fromClient : Bool) (hn : 7 ≤ n) (hle : off + n ≤ c.data.length) (s : Joining) :
    takeTPDU c fromClient off n s ≠ .panic := by
  unfold takeTPDU
  have hlen : ((c.data.drop (off + 4)).take (off + n - (off + 4))).length = n - 4 := by
    rw [length_take_drop (by omega)]
    omega
  rw [sliceOf_of_le (by omega) hle, Outcome.ok_bind]
  generalize (c.data.drop (off + 4)).take (off + n - (off + 4)) = tpdu at hlen
  rw [indexAt_of_lt (by omega), Outcome.ok_bind]
  dsimp only
  split
  · nofun
  rw [indexAt_of_lt (by omega), Outcome.ok_bind]
  split
  · nofun
  split
  · nofun
  split
  · split
    · nofun
    rw [sliceOf_of_le (by omega) (Nat.le_refl _), Outcome.ok_bind, indexAt_of_lt (by omega), Outcome.ok_bind]
    split
    · split
      · rw [indexAt_of_lt (by rw [c.sized]; omega)]
        nofun
      · nofun
    · nofun
  · nofun

/-- By induction on what is left of the run. -/
theorem pdusFrom_ne_panic (c : Chunk) (fromClient : Bool) (off : Nat) (s : Joining) :
    pdusFrom c fromClient off s ≠ .panic := by
  induction hk : c.data.length - off using Nat.strongRecOn generalizing off s with
  | ind k ih =>
    rw [pdusFrom]
    split
    · split
      · nofun
      rw [wordAt_of_le (by omega), Outcome.ok_bind]
      dsimp only
      split
      · nofun
      rw [indexAt_of_lt (by omega), Outcome.ok_bind]
      split
      · nofun
      split
      · nofun
      · refine Outcome.bind_ne_panic (takeTPDU_ne_panic fromClient (by omega) (by omega) s) fun s' _ => ?_
        exact ih _ (by omega) _ s' rfl
    · nofun

theorem runsPDUs_ne_panic (fromClient : Bool) (runs : List Chunk) (acc : Split) :
    runsPDUs fromClient runs acc ≠ .panic := by
  induction runs generalizing acc with
  | nil => nofun
  | cons r runs ih => exact Outcome.bind_ne_panic (pdusFrom_ne_panic r fromClient 0 {}) fun p _ => ih _

theorem flowPDUs_ne_panic (f : Flow) (fromClient : Bool) : flowPDUs f fromClient ≠ .panic :=
  Outcome.bind_ne_panic (runsPDUs_ne_panic fromClient _ _) fun _ _ => nofun

theorem withText_ne_panic {α : Type} {text : String} {r : Res α} (h : r ≠ .panic) : withText text r ≠ .panic := by
  cases r with
  | ok a => nofun
  | fail e => nofun
  | panic => exact absurd rfl h

theorem conversation_ne_panic (c : Conn) : c.conversation ≠ .panic := by
  refine Outcome.bind_ne_panic (withText_ne_panic (flowPDUs_ne_panic c.up true)) fun up _ => ?_
  exact Outcome.bind_ne_panic (withText_ne_panic (flowPDUs_ne_panic c.down false)) fun down _ => nofun

theorem conversationsOf_ne_panic (conns : List Conn) : conversationsOf conns ≠ .panic := by
  induction conns with
  | nil => nofun
  | cons c conns ih =>
    exact Outcome.bind_ne_panic (conversation_ne_panic c) fun conv _ => Outcome.bind_ne_panic ih fun rest _ => nofun

theorem frame_ne_panic (a : Assembler) (num : Nat) (p : Packet) : a.frame num p ≠ .panic := by
  cases h : refusal p with
  | none =>
    rw [frame_taken h]
    nofun
  | some err =>
    rw [frame_refused h]
    nofun

theorem framesFrom_ne_panic (num : Nat) (ps : List Packet) (a : Assembler) : framesFrom num ps a ≠ .panic := by
  induction ps generalizing num a with
  | nil => nofun
  | cons p ps ih => exact Outcome.bind_ne_panic (withText_ne_panic (frame_ne_panic a num p)) fun a _ => ih _ a

end Bounds

/-- Every length is checked before it is used: no file, and no order of a map, makes reading it panic. The loop of
    `stream` has one slice expression, which is in range in every round that comes to it. -/
theorem read_never_panics (order : List Conn → List Conn) (b : Bytes) :
    read order b ≠ .panic ∧
      ∀ (base : UInt32) (a : Assembly) (s : Segment), a.next < seqDiff s.seq base + s.payload.length →
        seqDiff s.seq base ≤ a.next →
        ∃ lo : Nat, (lo : Int) = a.next - seqDiff s.seq base ∧ ∃ p, sliceOf s.payload lo s.payload.length = .ok p ∧
          a.deliver base s =
            { a with cur := a.cur.append p s.frame, next := seqDiff s.seq base + s.payload.length } := by
  refine ⟨Outcome.bind_ne_panic ?_ fun frames _ => ?_, fun base a s hnew hold => deliver_slice hnew hold⟩
  · rcases (packets_outcome b) with hfail | ⟨out, hok⟩
    · rw [hfail]
      nofun
    · rw [hok]
      nofun
  · exact Outcome.bind_ne_panic (framesFrom_ne_panic 1 frames {}) fun a _ => conversationsOf_ne_panic _

/-! ### The frames of the PDUs -/

section Completion
variable {c : Chunk} {fromClient : Bool} {off n : Nat}

/-- A packet adds at most one PDU, which the frame of the packet's last byte completes. -/
theorem takeTPDU_out {s s' : Joining} (h : takeTPDU c fromClient off n s = .ok s') :
    s'.out = s.out ∨
      ∃ p : PDU, s'.out = s.out ++ [p] ∧ p.fromClient = fromClient ∧ c.frames[off + n - 1]? = some p.frame := by
  unfold takeTPDU at h
  obtain ⟨tpdu, -, h⟩ := Outcome.bind_eq_ok.mp h
  obtain ⟨li, -, h⟩ := Outcome.bind_eq_ok.mp h
  dsimp only at h
  split at h
  · cases h
  obtain ⟨code, -, h⟩ := Outcome.bind_eq_ok.mp h
  split at h
  · cases h
    exact .inl rfl
  split at h
  · cases h
    exact .inl rfl
  split at h
  · split at h
    · cases h
    obtain ⟨data, -, h⟩ := Outcome.bind_eq_ok.mp h
    obtain ⟨mark, -, h⟩ := Outcome.bind_eq_ok.mp h
    split at h
    · split at h
      · obtain ⟨frame, hframe, h⟩ := Outcome.bind_eq_ok.mp h
        cases h
        exact .inr ⟨_, rfl, rfl, index_eq_ok.mp hframe⟩
      · cases h
        exact .inl rfl
    · cases h
      exact .inl rfl
  · cases h
    exact .inl rfl

/-- The frames of the PDUs are among those of the bytes, in the same order. By induction on what is left of the run. -/
theorem pdusFrom_frames {s : Joining} {r : Split} (h : pdusFrom c fromClient off s = .ok r) :
    ∃ ps, r.out = s.out ++ ps ∧ (∀ p ∈ ps, p.fromClient = fromClient) ∧ (ps.map PDU.frame).Sublist (c.frames.drop off) := by
  induction hk : c.data.length - off using Nat.strongRecOn generalizing off s with
  | ind k ih =>
    rw [pdusFrom] at h
    split at h
    · split at h
      · cases h
        exact ⟨[], (List.append_nil _).symm, nofun, List.nil_sublist _⟩
      obtain ⟨len, -, h⟩ := Outcome.bind_eq_ok.mp h
      dsimp only at h
      split at h
      · cases h
        exact ⟨[], (List.append_nil _).symm, nofun, List.nil_sublist _⟩
      obtain ⟨version, -, h⟩ := Outcome.bind_eq_ok.mp h
      split at h
      · cases h
      split at h
      · cases h
      · obtain ⟨s₁, htake, hrest⟩ := Outcome.bind_eq_ok.mp h
        obtain ⟨ps, hout, hdir, hsub⟩ := ih _ (by omega) hrest rfl
        have hsplit : c.frames.drop off = (c.frames.drop off).take len.toNat ++ c.frames.drop (off + len.toNat) := by
          rw [← List.drop_drop, List.take_append_drop]
        rcases takeTPDU_out htake with hsame | ⟨p, hadd, hp, hframe⟩
        · rw [hsame] at hout
          refine ⟨ps, hout, hdir, hsub.trans ?_⟩
          rw [hsplit]
          exact List.sublist_append_right _ _
        · rw [hadd, List.append_assoc] at hout
          refine ⟨p :: ps, hout, List.forall_mem_cons.mpr ⟨hp, hdir⟩, ?_⟩
          rw [hsplit, List.map_cons, ← List.singleton_append]
          refine List.Sublist.append (List.singleton_sublist.mpr ?_) hsub
          refine List.mem_of_getElem? (i := len.toNat - 1) ?_
          rwa [List.getElem?_take_of_lt (by omega), List.getElem?_drop, ← Nat.add_sub_assoc (by omega)]
    · cases h
      exact ⟨[], (List.append_nil _).symm, nofun, List.nil_sublist _⟩

theorem runsPDUs_frames {runs : List Chunk} {acc r : Split} (h : runsPDUs fromClient runs acc = .ok r) :
    ∃ ps, r.out = acc.out ++ ps ∧ (∀ p ∈ ps, p.fromClient = fromClient) ∧
      (ps.map PDU.frame).Sublist (runs.flatMap Chunk.frames) := by
  induction runs generalizing acc with
  | nil =>
    cases h
    exact ⟨[], (List.append_nil _).symm, nofun, List.nil_sublist _⟩
  | cons run runs ih =>
    obtain ⟨s, hs, hrest⟩ := Outcome.bind_eq_ok.mp h
    obtain ⟨ps, hout, hdir, hsub⟩ := pdusFrom_frames hs
    obtain ⟨qs, hout', hdir', hsub'⟩ := ih hrest
    refine ⟨ps ++ qs, ?_, List.forall_mem_append.mpr ⟨hdir, hdir'⟩, ?_⟩
    · rw [hout', ← List.append_assoc]
      exact congrArg (acc.out ++ · ++ qs) (hout.trans (List.nil_append ps))
    · rw [List.map_append, List.flatMap_cons]
      exact hsub.append hsub'

/-- Every PDU of a flow has its direction, and their frames are among those of the bytes, in the same order. -/
theorem flowPDUs_frames {f : Flow} {r : Split × Nat} (h : flowPDUs f fromClient = .ok r) :
    (∀ p ∈ r.1.out, p.fromClient = fromClient) ∧ (r.1.out.map PDU.frame).Sublist (f.stream.flatMap Chunk.frames) := by
  obtain ⟨s, hs, hr⟩ := Outcome.bind_eq_ok.mp h
  cases hr
  obtain ⟨ps, hout, hdir, hsub⟩ := runsPDUs_frames hs
  rw [show s.out = ps from hout.trans (List.nil_append ps)]
  exact ⟨hdir, hsub⟩

end Completion

/-! ### Merging -/

section Merge
variable {up down : List PDU}

instance : Std.Total fun p q : PDU => p.frame ≤ q.frame := ⟨fun p q => Nat.le_total p.frame q.frame⟩

instance : IsTrans PDU fun p q => p.frame ≤ q.frame := ⟨fun _ _ _ => Nat.le_trans⟩

theorem filter_directions (hup : ∀ p ∈ up, p.fromClient = true) (hdown : ∀ p ∈ down, p.fromClient = false) :
    (up ++ down).filter (fun p => p.fromClient) = up ∧ (up ++ down).filter (fun p => !p.fromClient) = down := by
  have hup' : up.filter (fun p => !p.fromClient) = [] :=
    List.filter_eq_nil_iff.mpr fun p hp => by simp [hup p hp]
  have hdown' : down.filter (fun p => p.fromClient) = [] :=
    List.filter_eq_nil_iff.mpr fun p hp => by simp [hdown p hp]
  have hup'' : up.filter (fun p => p.fromClient) = up := List.filter_eq_self.mpr hup
  have hdown'' : down.filter (fun p => !p.fromClient) = down := List.filter_eq_self.mpr fun p hp => by simp [hdown p hp]
  rw [List.filter_append, List.filter_append, hup', hdown', hup'', hdown'', List.append_nil, List.nil_append]
  exact ⟨rfl, rfl⟩

theorem mergePDUs_fromClient (hup : ∀ p ∈ up, p.fromClient = true) (hdown : ∀ p ∈ down, p.fromClient = false) :
    (mergePDUs up down).filter (fun p => p.fromClient) = up ↔ up.Pairwise fun p q => p.frame ≤ q.frame := by
  have h := filter_insertionSort_iff (fun p q : PDU => p.frame ≤ q.frame) (fun p => p.fromClient) (up ++ down)
  rwa [(filter_directions hup hdown).1] at h

theorem mergePDUs_fromServer (hup : ∀ p ∈ up, p.fromClient = true) (hdown : ∀ p ∈ down, p.fromClient = false) :
    (mergePDUs up down).filter (fun p => !p.fromClient) = down ↔ down.Pairwise fun p q => p.frame ≤ q.frame := by
  have h := filter_insertionSort_iff (fun p q : PDU => p.frame ≤ q.frame) (fun p => !p.fromClient) (up ++ down)
  rwa [(filter_directions hup hdown).2] at h

/-- Merging keeps the PDUs of each direction. -/
theorem mergePDUs_perm (hup : ∀ p ∈ up, p.fromClient = true) (hdown : ∀ p ∈ down, p.fromClient = false) :
    ((mergePDUs up down).filter (fun p => p.fromClient)).Perm up ∧
      ((mergePDUs up down).filter (fun p => !p.fromClient)).Perm down := by
  have hperm : (mergePDUs up down).Perm (up ++ down) := List.perm_insertionSort _ _
  have hfilter := filter_directions hup hdown
  exact ⟨(hperm.filter _).trans (.of_eq hfilter.1), (hperm.filter _).trans (.of_eq hfilter.2)⟩

end Merge

/-! ### Flows that were recorded in order -/

/-- The sequence number at which the code starts the flow. -/
def Flow.base (f : Flow) : UInt32 := if f.syn then f.isn + 1 else (f.segs.head?.map Segment.seq).getD 0

/-- The segments were recorded in the order of their sequence numbers. -/
def Flow.InSequence (f : Flow) : Prop :=
  f.segs.Pairwise fun s t => s.frame ≤ t.frame ∧ seqDiff s.seq f.base ≤ seqDiff t.seq f.base

section InSequence

/-- One round of the loop adds bytes of one frame, or none. -/
theorem deliver_frames (base : UInt32) (a : Assembly) (s : Segment) :
    ∃ k, (a.deliver base s).chunks.flatMap Chunk.frames = a.chunks.flatMap Chunk.frames ++ List.replicate k s.frame := by
  unfold Assembly.deliver
  dsimp only
  split
  · exact ⟨0, (List.append_nil _).symm⟩
  split
  · refine ⟨s.payload.length, ?_⟩
    rw [Assembly.chunks, List.flatMap_append, List.flatMap_singleton]
    rfl
  · refine ⟨(s.payload.drop (a.next - seqDiff s.seq base).toNat).length, ?_⟩
    simp [Assembly.chunks, Chunk.append]

/-- Segments whose frames grow leave bytes whose frames grow. By induction on the segments. -/
theorem foldl_deliver_frames (base : UInt32) {segs : List Segment} (hsegs : segs.Pairwise fun s t => s.frame ≤ t.frame)
    {a : Assembly} (ha : (a.chunks.flatMap Chunk.frames).Pairwise (· ≤ ·))
    (hle : ∀ n ∈ a.chunks.flatMap Chunk.frames, ∀ s ∈ segs, n ≤ s.frame) :
    ((segs.foldl (Assembly.deliver base) a).chunks.flatMap Chunk.frames).Pairwise (· ≤ ·) := by
  induction segs generalizing a with
  | nil => exact ha
  | cons s segs ih =>
    obtain ⟨hs, hsegs⟩ := List.pairwise_cons.mp hsegs
    obtain ⟨k, hk⟩ := deliver_frames base a s
    refine ih hsegs ?_ ?_
    · rw [hk]
      refine List.pairwise_append.mpr ⟨ha, List.pairwise_replicate.mpr (.inr (Nat.le_refl _)), fun m hm n hn => ?_⟩
      rw [List.eq_of_mem_replicate hn]
      exact hle m hm s (List.mem_cons_self ..)
    · intro n hn t ht
      rw [hk, List.mem_append] at hn
      rcases hn with hn | hn
      · exact hle n hn t (List.mem_cons_of_mem _ ht)
      · rw [List.eq_of_mem_replicate hn]
        exact hs t ht

theorem Flow.InSequence.stream_frames {f : Flow} (h : f.InSequence) :
    (f.stream.flatMap Chunk.frames).Pairwise (· ≤ ·) := by
  unfold Flow.stream
  split
  · exact .nil
  · rename_i s segs hsegs
    have hbase : f.base = if f.syn then f.isn + 1 else s.seq := by
      rw [Flow.base, hsegs]
      rfl
    have hsorted : sortedBy f.base f.segs = f.segs := List.Pairwise.insertionSort_eq (h.imp And.right)
    dsimp only
    rw [← hbase, hsorted]
    exact foldl_deliver_frames f.base (h.imp And.left) .nil nofun

theorem Flow.InSequence.pdus_sorted {f : Flow} (h : f.InSequence) {fromClient : Bool} {r : Split × Nat}
    (hr : flowPDUs f fromClient = .ok r) : r.1.out.Pairwise fun p q => p.frame ≤ q.frame :=
  List.pairwise_map.mp (h.stream_frames.sublist (flowPDUs_frames hr).2)

end InSequence

theorem conversation_eq_ok {c : Conn} {conv : Conversation} (h : c.conversation = .ok conv) :
    ∃ up down, flowPDUs c.up true = .ok up ∧ flowPDUs c.down false = .ok down ∧
      conv = ⟨c.key.client, c.key.server, up.1.cr + down.1.cr, up.1.cc + down.1.cc, up.2 + down.2,
        up.1.dropped + down.1.dropped, mergePDUs up.1.out down.1.out⟩ := by
  have htext : ∀ {α : Type} {text : String} {r : Res α} {a : α}, withText text r = .ok a → r = .ok a := by
    intro α text r a h
    cases r with
    | ok a => exact h
    | fail e => cases h
    | panic => cases h
  obtain ⟨up, hup, h⟩ := Outcome.bind_eq_ok.mp h
  obtain ⟨down, hdown, h⟩ := Outcome.bind_eq_ok.mp h
  cases h
  exact ⟨up, down, htext hup, htext hdown, rfl⟩

theorem conversation_of_flows {c : Conn} {up down : Split × Nat} (hup : flowPDUs c.up true = .ok up)
    (hdown : flowPDUs c.down false = .ok down) :
    c.conversation = .ok ⟨c.key.client, c.key.server, up.1.cr + down.1.cr, up.1.cc + down.1.cc, up.2 + down.2,
      up.1.dropped + down.1.dropped, mergePDUs up.1.out down.1.out⟩ := by
  rw [Conn.conversation, hup, hdown]
  rfl

/-- The order of the PDUs of a conversation. They are those of both directions, in the order of the frames that
    completed them. The PDUs of a direction are in the order of the stream exactly when their frames are, and they are
    if the direction was recorded in the order of its sequence numbers. -/
theorem conversation_order {c : Conn} {conv : Conversation} (h : c.conversation = .ok conv) :
    ∃ up down, flowPDUs c.up true = .ok up ∧ flowPDUs c.down false = .ok down ∧
      conv.pdus.Perm (up.1.out ++ down.1.out) ∧ conv.pdus.Pairwise (fun p q => p.frame ≤ q.frame) ∧
      (conv.pdus.filter (fun p => p.fromClient) = up.1.out ↔ up.1.out.Pairwise fun p q => p.frame ≤ q.frame) ∧
      (conv.pdus.filter (fun p => !p.fromClient) = down.1.out ↔ down.1.out.Pairwise fun p q => p.frame ≤ q.frame) ∧
      (c.up.InSequence → conv.pdus.filter (fun p => p.fromClient) = up.1.out) ∧
      (c.down.InSequence → conv.pdus.filter (fun p => !p.fromClient) = down.1.out) := by
  obtain ⟨up, down, hup, hdown, rfl⟩ := conversation_eq_ok h
  have hclient := (flowPDUs_frames hup).1
  have hserver := (flowPDUs_frames hdown).1
  refine ⟨up, down, hup, hdown, List.perm_insertionSort _ _, List.pairwise_insertionSort _ _,
    mergePDUs_fromClient hclient hserver, mergePDUs_fromServer hclient hserver, fun hseq => ?_, fun hseq => ?_⟩
  · exact (mergePDUs_fromClient hclient hserver).mpr (hseq.pdus_sorted hup)
  · exact (mergePDUs_fromServer hclient hserver).mpr (hseq.pdus_sorted hdown)

/-- A packet with an S7 PDU of one more byte. -/
def onePDU (last : UInt8) : Bytes := [3, 0, 0, 9, 2, 0xF0, 0x80, 0x32, last]

/-- Of two PDUs the first was recorded after the second, as a retransmission is. -/
def lateConn : Conn where
  key := ⟨"10.0.0.1:49159", "10.0.0.2:102"⟩
  firstFrame := 1
  up := ⟨true, 0, [⟨2, 10, onePDU 2, by decide⟩, ⟨3, 1, onePDU 1, by decide⟩]⟩

theorem conversation_order_late :
    ∃ conv, lateConn.conversation = .ok conv ∧ conv.pdus.map PDU.data = [[0x32, 2], [0x32, 1]] ∧
      ∃ up, flowPDUs lateConn.up true = .ok up ∧ up.1.out.map PDU.data = [[0x32, 1], [0x32, 2]] ∧
        conv.pdus.filter (fun p => p.fromClient) ≠ up.1.out := by
  have hconv : lateConn.conversation =
      .ok ⟨"10.0.0.1:49159", "10.0.0.2:102", 0, 0, 0, 0, [⟨true, 2, [0x32, 2]⟩, ⟨true, 3, [0x32, 1]⟩]⟩ := by
    decide +kernel
  have hflow : flowPDUs lateConn.up true = .ok (⟨[⟨true, 3, [0x32, 1]⟩, ⟨true, 2, [0x32, 2]⟩], 0, 0, 0⟩, 0) := by
    decide +kernel
  obtain ⟨up, down, hup, -, -, -, hiff, -⟩ := conversation_order hconv
  rw [hflow] at hup
  cases hup
  refine ⟨_, hconv, rfl, _, hflow, rfl, fun heq => ?_⟩
  exact absurd (hiff.mp heq) (by decide)

end S7Comm.Capture
