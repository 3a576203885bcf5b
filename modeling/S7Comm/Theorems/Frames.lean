import S7Comm.Capture.Read
import S7Comm.Lib.Keyed
import S7Comm.Theorems.CaptureFiles

/-! Frames and connections. Whatever frames a file interleaves, and in whatever order a map gives its entries, the
    conversations of a capture are those of its connections, each made of its own frames, in the order of the frames
    that opened them. -/

namespace S7Comm.Capture
open Go

/-! ### Headers stay in bounds -/

section Headers
variable {d : Bytes}

theorem etherPayload_ne_panic (d : Bytes) : etherPayload d ≠ .panic := by
  unfold etherPayload
  split
  · nofun
  rw [wordAt_of_le (by omega), Outcome.ok_bind, sliceOf_of_le (by omega) (Nat.le_refl _), Outcome.ok_bind]
  split
  · split
    · nofun
    · rw [wordAt_of_le (by omega), Outcome.ok_bind, sliceOf_of_le (by omega) (Nat.le_refl _)]
      nofun
  · nofun

theorem addressAt_of_le {i : Nat} (h : i + 4 ≤ d.length) :
    ∃ s, addressAt d i = .ok s := by
  unfold addressAt
  rw [indexAt_of_lt (by omega), indexAt_of_lt (by omega), indexAt_of_lt (by omega), indexAt_of_lt (by omega)]
  exact ⟨_, rfl⟩

theorem ipv4Payload_ne_panic (d : Bytes) : ipv4Payload d ≠ .panic := by
  unfold ipv4Payload
  split
  · nofun
  rw [indexAt_of_lt (by omega), Outcome.ok_bind]
  split
  · nofun
  rw [wordAt_of_le (by omega), Outcome.ok_bind]
  dsimp only
  split
  · nofun
  rw [indexAt_of_lt (by omega), Outcome.ok_bind]
  split
  · nofun
  rw [wordAt_of_le (by omega), Outcome.ok_bind]
  split
  · nofun
  obtain ⟨src, hsrc⟩ := addressAt_of_le (d := d) (i := 12) (by omega)
  obtain ⟨dst, hdst⟩ := addressAt_of_le (d := d) (i := 16) (by omega)
  rw [hsrc, Outcome.ok_bind, hdst, Outcome.ok_bind, sliceOf_of_le (by omega) (by omega)]
  nofun

theorem tcpHeader_ne_panic (src dst : String) (t : Bytes) : tcpHeader src dst t ≠ .panic := by
  unfold tcpHeader
  split
  · nofun
  rw [wordAt_of_le (by omega), Outcome.ok_bind, wordAt_of_le (by omega), Outcome.ok_bind, indexAt_of_lt (by omega),
    Outcome.ok_bind]
  dsimp only
  split
  · nofun
  obtain ⟨seq, hseq⟩ := dwordAt_of_le (b := t) (i := 4) (by omega)
  rw [hseq, Outcome.ok_bind, indexAt_of_lt (by omega), Outcome.ok_bind, sliceOf_of_le (by omega) (Nat.le_refl _)]
  nofun

theorem tcpPacket_ne_panic (data : Bytes) : tcpPacket data ≠ .panic := by
  refine Outcome.bind_ne_panic (etherPayload_ne_panic data) fun r _ => ?_
  cases r with
  | none => nofun
  | some r =>
    dsimp only
    split
    · nofun
    · refine Outcome.bind_ne_panic (ipv4Payload_ne_panic _) fun r _ => ?_
      cases r with
      | none => nofun
      | some r => exact tcpHeader_ne_panic r.1 r.2.1 r.2.2

end Headers

/-! ### Frames as they arrive -/

/-- A frame of S7 traffic: its number, its connection and direction, and the TCP packet. -/
structure Arrival where
  num : Nat
  key : ConnKey
  toServer : Bool
  packet : TCPPacket

def arrival (num : Nat) (p : Packet) : Option Arrival :=
  match tcpPacket p.data with
  | .ok (some t) => t.place.map fun r => ⟨num, r.1, r.2, t⟩
  | _ => none

/-- The frames of S7 traffic, the first of all frames having the number `num`. -/
def arrivalsFrom : (num : Nat) → List Packet → List Arrival
  | _, [] => []
  | num, p :: ps => (arrival num p).toList ++ arrivalsFrom (num + 1) ps

/-- The error of a frame that is not taken: another link layer, or a fragment. -/
def refusal (p : Packet) : Option GoError :=
  if p.link ≠ linkEthernet then some (.text s!"link type {p.link}: only Ethernet is supported")
  else
    match tcpPacket p.data with
    | .fail err => some err
    | _ => none

/-- What a frame does to its flow. -/
def Arrival.apply (f : Flow) (e : Arrival) : Flow := f.frame e.num e.packet.syn e.packet.seq e.packet.payload

/-- How frames come to their connections. -/
def connections : Keyed ConnKey Conn Arrival where
  keyOf := Conn.key
  key := Arrival.key
  init e := { key := e.key, firstFrame := e.num }
  step c e := c.update e.toServer (Arrival.apply · e)
  keyOf_init _ := rfl
  keyOf_step c e := by
    unfold Conn.update
    split <;> rfl

/-- What frames make of one direction of a connection. -/
def flowOf (toServer : Bool) (es : List Arrival) : Flow :=
  (es.filter fun e => e.toServer == toServer).foldl Arrival.apply {}

/-- The connection with this key that these frames make, which are all its own. -/
def connOf (key : ConnKey) (own : List Arrival) : Conn where
  key := key
  firstFrame := (own.head?.map Arrival.num).getD 0
  up := flowOf true own
  down := flowOf false own

/-- The connections that frames make, in the order in which they were opened. -/
def connsOf (es : List Arrival) : List Conn := (connections.keys es).map fun k => connOf k (connections.own es k)

section Frames
variable {a : Assembler} {num : Nat} {p : Packet} {ps : List Packet} {err : GoError}

theorem frame_refused (h : refusal p = some err) : a.frame num p = .fail err := by
  unfold refusal at h
  unfold Assembler.frame
  split at h
  · rename_i hlink
    cases h
    rw [if_pos hlink]
  · rename_i hlink
    rw [if_neg hlink]
    split at h
    · rename_i htcp
      cases h
      rw [htcp]
      rfl
    · cases h

theorem conns_update (a : Assembler) (e : Arrival) :
    (a.update e.num e.key e.toServer (Arrival.apply · e)).conns = connections.put a.conns e := by
  rw [Assembler.update, apply_ite Assembler.conns]
  rfl

/-- A frame that is taken goes to its connection, if it has one. -/
theorem frame_taken (h : refusal p = none) :
    a.frame num p = .ok ⟨(arrival num p).toList.foldl connections.put a.conns⟩ := by
  unfold refusal at h
  unfold Assembler.frame arrival
  split at h
  · cases h
  rename_i hlink
  rw [if_neg hlink]
  rcases htcp : tcpPacket p.data with (_ | t) | err | _
  · rfl
  · rw [Outcome.ok_bind]
    dsimp only
    cases hplace : t.place with
    | none => rfl
    | some r =>
      exact congrArg (Outcome.ok ∘ Assembler.mk) (conns_update a ⟨num, r.1, r.2, t⟩)
  · rw [htcp] at h
    cases h
  · exact absurd htcp (tcpPacket_ne_panic p.data)

/-- The loop over the frames. By induction on the frames. -/
theorem framesFrom_taken (num : Nat) (a : Assembler) (h : ∀ p ∈ ps, refusal p = none) :
    framesFrom num ps a = .ok ⟨(arrivalsFrom num ps).foldl connections.put a.conns⟩ := by
  induction ps generalizing num a with
  | nil => rfl
  | cons p ps ih =>
    obtain ⟨hp, hps⟩ := List.forall_mem_cons.mp h
    rw [framesFrom, frame_taken hp]
    refine (ih (num + 1) _ hps).trans ?_
    rw [arrivalsFrom, List.foldl_append]

/-- The loop up to the first frame that is refused. -/
theorem framesFrom_refused {pre post : List Packet} (num : Nat) (a : Assembler) (hpre : ∀ q ∈ pre, refusal q = none)
    (hp : refusal p = some err) :
    framesFrom num (pre ++ p :: post) a = .fail (.wrap (s!"frame {num + pre.length}: " ++ err.error) err) := by
  induction pre generalizing num a with
  | nil =>
    rw [List.nil_append, framesFrom, frame_refused hp]
    rfl
  | cons q pre ih =>
    obtain ⟨hq, hpre⟩ := List.forall_mem_cons.mp hpre
    rw [List.cons_append, framesFrom, frame_taken hq]
    refine (ih (num + 1) _ hpre).trans ?_
    rw [List.length_cons, Nat.add_right_comm, Nat.add_assoc]

theorem num_of_mem_arrivalsFrom {e : Arrival} (h : e ∈ arrivalsFrom num ps) : num ≤ e.num := by
  induction ps generalizing num with
  | nil => cases h
  | cons p ps ih =>
    rw [arrivalsFrom, List.mem_append] at h
    rcases h with h | h
    · unfold arrival at h
      split at h
      · obtain ⟨r, -, rfl⟩ := Option.map_eq_some_iff.mp (Option.mem_toList.mp h)
        exact Nat.le_refl _
      · cases h
    · exact Nat.le_of_succ_le (ih h)

/-- Frames arrive with growing numbers. -/
theorem pairwise_arrivalsFrom (num : Nat) (ps : List Packet) :
    (arrivalsFrom num ps).Pairwise fun e e' => e.num < e'.num := by
  induction ps generalizing num with
  | nil => exact .nil
  | cons p ps ih =>
    rw [arrivalsFrom]
    refine List.pairwise_append.mpr ⟨?_, ih (num + 1), fun e he e' he' => ?_⟩
    · cases arrival num p with
      | none => exact .nil
      | some e => exact List.pairwise_singleton _ _
    · have hnum : e.num = num := by
        unfold arrival at he
        split at he
        · obtain ⟨r, -, rfl⟩ := Option.map_eq_some_iff.mp (Option.mem_toList.mp he)
          rfl
        · cases he
      rw [hnum]
      exact num_of_mem_arrivalsFrom he'

end Frames

/-! ### The connections of a capture -/

section Connections
variable {es : List Arrival}

/-- Frames change each direction of a connection on their own. -/
theorem foldl_step (c : Conn) (es : List Arrival) :
    es.foldl connections.step c =
      { c with
        up := (es.filter fun e => e.toServer == true).foldl Arrival.apply c.up
        down := (es.filter fun e => e.toServer == false).foldl Arrival.apply c.down } := by
  induction es generalizing c with
  | nil => rfl
  | cons e es ih =>
    rw [List.foldl_cons, ih]
    cases hdir : e.toServer <;> simp [connections, Conn.update, hdir]

theorem entry_eq_connOf {k : ConnKey} (h : k ∈ connections.keys es) :
    connections.entry (connections.own es k) = some (connOf k (connections.own es k)) := by
  rcases hown : connections.own es k with _ | ⟨e, own⟩
  · exact absurd hown (Keyed.own_ne_nil h)
  · have hkey : e.key = k := by
      have : e ∈ connections.own es k := hown ▸ List.mem_cons_self ..
      exact of_decide_eq_true (List.mem_filter.mp this).2
    have hstep := foldl_step { key := e.key, firstFrame := e.num } (e :: own)
    rw [List.foldl_cons] at hstep
    subst hkey
    exact congrArg some hstep

/-- The map after the frames: the connections that the frames make. -/
theorem foldl_put_connections (es : List Arrival) : es.foldl connections.put [] = connsOf es := by
  rw [Keyed.foldl_put, connsOf, ← List.filterMap_eq_map]
  exact List.filterMap_congr fun k hk => entry_eq_connOf hk

/-- The connections are sorted by the frames that opened them. -/
theorem sorted_connsOf (h : es.Pairwise fun e e' => e.num < e'.num) :
    (connsOf es).Pairwise fun c d => c.firstFrame < d.firstFrame := by
  rw [connsOf, List.pairwise_map]
  refine (Keyed.pairwise_keys (m := connections) h).imp_of_mem fun {k k'} hk hk' hlt => ?_
  obtain ⟨e, own, hown⟩ := List.exists_cons_of_ne_nil (Keyed.own_ne_nil hk)
  obtain ⟨e', own', hown'⟩ := List.exists_cons_of_ne_nil (Keyed.own_ne_nil hk')
  rw [hown, hown'] at hlt ⊢
  exact hlt e rfl e' rfl

/-- Sorted again, whatever the order in which the map gave them. -/
theorem conversations_perm {conns : List Conn} (hsorted : conns.Pairwise fun c d => c.firstFrame < d.firstFrame)
    {given : List Conn} (hperm : given.Perm conns) : conversations given = conversationsOf conns := by
  have htotal : Std.Total fun c d : Conn => c.firstFrame ≤ d.firstFrame := ⟨fun c d => Nat.le_total _ _⟩
  have htrans : IsTrans Conn fun c d => c.firstFrame ≤ d.firstFrame := ⟨fun _ _ _ => Nat.le_trans⟩
  have hsort := List.pairwise_insertionSort (fun c d : Conn => c.firstFrame ≤ d.firstFrame) given
  have hperm' := (List.perm_insertionSort (fun c d : Conn => c.firstFrame ≤ d.firstFrame) given).trans hperm
  have heq : given.insertionSort (fun c d => c.firstFrame ≤ d.firstFrame) = conns := by
    have hnodup : (conns.map Conn.firstFrame).Nodup := List.pairwise_map.mpr (hsorted.imp Nat.ne_of_lt)
    refine hperm'.eq_of_pairwise (fun c d hc hd hcd hdc => ?_) hsort (hsorted.imp Nat.le_of_lt)
    exact List.inj_on_of_nodup_map hnodup (hperm'.mem_iff.mp hc) hd (Nat.le_antisymm hcd hdc)
  rw [conversations, heq]

/-- When every frame is taken, the conversations are those of the connections, whatever order the map gives them in. -/
theorem read_taken {order : List Conn → List Conn} (horder : ∀ l, (order l).Perm l) {b : Bytes} {frames : List Packet}
    (hfile : packets b = .ok frames) (htaken : ∀ p ∈ frames, refusal p = none) :
    read order b = conversationsOf (connsOf (arrivalsFrom 1 frames)) := by
  rw [read, hfile, Outcome.ok_bind, framesFrom_taken 1 {} htaken, Outcome.ok_bind]
  refine conversations_perm (sorted_connsOf (pairwise_arrivalsFrom 1 frames)) ?_
  rw [← foldl_put_connections]
  exact horder _

end Connections

/-- Reading a capture is reading its connections one by one. Each is made of its own frames only, whatever frames are
    between them; they come in the order of the frames that opened them, whatever order the map gives them in. A frame
    that is not Ethernet, or that is a fragment, ends the reading with an error that has its number. -/
theorem read_by_connection {order : List Conn → List Conn} (horder : ∀ l, (order l).Perm l) {b : Bytes}
    {frames : List Packet} (hfile : packets b = .ok frames) :
    ((∀ p ∈ frames, refusal p = none) → read order b = conversationsOf (connsOf (arrivalsFrom 1 frames))) ∧
    ∀ pre p post err, frames = pre ++ p :: post → (∀ q ∈ pre, refusal q = none) → refusal p = some err →
      read order b = .fail (.wrap (s!"frame {1 + pre.length}: " ++ err.error) err) := by
  constructor
  · exact read_taken horder hfile
  · rintro pre p post err rfl hpre hp
    rw [read, hfile, Outcome.ok_bind, framesFrom_refused 1 {} hpre hp]
    rfl

/-- The bytes of a SYN from this port of a client. -/
def synFrame (port : UInt8) : Bytes :=
  List.replicate 12 0 ++ [8, 0, 0x45, 0, 0, 40, 0, 0, 0, 0, 64, 6, 0, 0, 10, 0, 0, 1, 10, 0, 0, 2] ++
    [0xC0, port, 0, 102, 0, 0, 0, 1, 0, 0, 0, 0, 0x50, 0x02, 0, 0, 0, 0, 0, 0]

/-- A file in which the SYNs of two connections alternate. -/
def alternating : PcapFile where
  bo := .big
  nano := true
  unread := List.replicate 16 0
  link := 1
  records := [7, 8, 7].map fun port => ⟨List.replicate 8 0, List.replicate 4 0, synFrame port, rfl, rfl, show 54 < 2 ^ 32 by decide⟩
  unread_length := rfl

theorem read_by_connection_alternating :
    read List.reverse alternating.wire =
      .ok [⟨"10.0.0.1:49159", "10.0.0.2:102", 0, 0, 0, 0, []⟩, ⟨"10.0.0.1:49160", "10.0.0.2:102", 0, 0, 0, 0, []⟩] := by
  refine ((read_by_connection List.reverse_perm (packets_pcapFile alternating)).1 ?_).trans ?_
  · decide
  · decide

end S7Comm.Capture
