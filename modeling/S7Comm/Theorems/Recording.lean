import S7Comm.Theorems.Conversations
import S7Comm.Theorems.Gaps
import S7Comm.Theorems.Traffic

/-! Recordings. Clients and servers talk over any number of TCP connections; a recording has all frames of them, mixed
    with each other and with other traffic, some of them twice or out of order. Reading it gives back what was said. -/

namespace S7Comm.Capture
open Go

/-! ### One direction, complete -/

section Direction
variable {items : List Item} {cuts : List (Cut (items.flatMap Item.wire))}

theorem length_flatMap_item (items : List Item) : (items.flatMap Item.wire).length = total Item.size items := by
  have hlen : ∀ i : Item, i.wire.length = i.size := fun i => length_flatMap_wire i.packets
  simp [List.length_flatMap, total, hlen]

/-- When all items are complete, no TSDU is left open. -/
theorem openTSDU_total (items : List Item) : openTSDU items (total Item.size items) = [] := by
  induction items with
  | nil => rfl
  | cons i items ih => rw [openTSDU, total_cons, if_pos (Nat.le_add_right ..), Nat.add_sub_cancel_left, ih]

/-- The whole stream as one run. -/
theorem pdus_whole (fromClient : Bool) {run : Chunk} (h : run.data = items.flatMap Item.wire) :
    ∃ r, pdus run fromClient = .ok r ∧ r.out.map PDU.data = items.filterMap Item.s7 ∧ r.cr = items.countP Item.isCR ∧
      r.cc = items.countP Item.isCC ∧ r.dropped = 0 := by
  have hpre : run.data <+: items.flatMap Item.wire := by rw [h]
  obtain ⟨r, hr, hout, hcr, hcc, hdropped⟩ := pdus_items fromClient hpre
  have hlen : run.data.length = total Item.size items := by rw [h, length_flatMap_item]
  rw [hlen, whole_of_le (Nat.le_refl _)] at hout hcr hcc
  refine ⟨r, hr, hout, hcr, hcc, hdropped.mpr ⟨?_, ?_⟩⟩
  · have hpackets : total Item.size items = total TPKT.size (items.flatMap Item.packets) := by
      rw [← length_flatMap_item, ← length_flatMap_wire, List.flatMap_assoc]
      rfl
    refine leftover_eq_zero.mpr ⟨(items.flatMap Item.packets).length, ?_⟩
    rw [hlen, hpackets, startAt, List.take_length]
  · rw [hlen, openTSDU_total]

/-- A direction of which every byte was recorded, in whatever order. -/
theorem flowPDUs_whole (fromClient : Bool) (isn : UInt32) (hshort : (items.flatMap Item.wire).length < 2 ^ 30)
    (hall : ∀ x, x < (items.flatMap Item.wire).length → Captured cuts x) :
    ∃ r, flowPDUs (recorded true isn cuts) fromClient = .ok (r, 0) ∧ r.out.map PDU.data = items.filterMap Item.s7 ∧
      r.cr = items.countP Item.isCR ∧ r.cc = items.countP Item.isCC ∧ r.dropped = 0 := by
  obtain ⟨rs, runs, hsep, hcovers, hruns, hstream⟩ := stream_syn hshort isn cuts
  have hcaptured : ∀ x, Captured cuts x ↔ x < (items.flatMap Item.wire).length := by
    intro x
    refine ⟨fun hx => ?_, hall x⟩
    obtain ⟨c, -, -, hlt⟩ := captured_iff.mp hx
    exact Nat.lt_of_lt_of_le hlt c.le
  rcases Nat.eq_zero_or_pos (items.flatMap Item.wire).length with hzero | hpos
  · -- Nothing was sent, and nothing can have been cut from it.
    have hcuts : cuts = [] := List.eq_nil_iff_forall_not_mem.mpr fun c _ => by
      have := c.le
      have := c.pos
      omega
    subst hcuts
    have hnil : ({} : Chunk).data = items.flatMap Item.wire := (List.eq_nil_of_length_eq_zero hzero).symm
    obtain ⟨r, hr, hout, hcr, hcc, hdropped⟩ := pdus_whole fromClient hnil
    rw [pdus_empty] at hr
    cases hr
    exact ⟨{}, rfl, hout, hcr, hcc, hdropped⟩
  · have hrs : rs = [(0, (items.flatMap Item.wire).length)] := by
      refine hsep.ext ⟨hpos, nofun, trivial⟩ fun x => ?_
      rw [hcovers, hcaptured]
      simp
    subst hrs
    obtain ⟨run, rest, hrun, hrest, rfl⟩ := List.forall₂_cons_left_iff.mp hruns
    obtain rfl := List.forall₂_nil_left_iff.mp hrest
    have hdata : run.data = items.flatMap Item.wire := by
      rw [hrun.data_eq, List.drop_zero, Nat.sub_zero, List.take_length]
    obtain ⟨r, hr, hout, hcr, hcc, hdropped⟩ := pdus_whole fromClient hdata
    rw [if_pos (.inr ((hcaptured 0).mpr hpos)), List.nil_append] at hstream
    refine ⟨r, ?_, hout, hcr, hcc, hdropped⟩
    rw [flowPDUs, hstream, runsPDUs, hr, Outcome.ok_bind, runsPDUs]
    simp

end Direction

/-! ### Recordings -/

/-- A client and a server, what they say to each other over one connection, and how it was recorded. -/
structure Talk where
  client : Endpoint
  server : Endpoint
  isn : (toServer : Bool) → UInt32
  items : (toServer : Bool) → List Item
  /-- How the recorded frames cut the bytes of a direction. -/
  cuts : (toServer : Bool) → List (Cut ((items toServer).flatMap Item.wire))
  serverPort : server.port = s7Port
  clientPort : client.port ≠ s7Port
  short : ∀ toServer, ((items toServer).flatMap Item.wire).length < 2 ^ 30

namespace Talk
variable (t : Talk)

abbrev stream (toServer : Bool) : Bytes := (t.items toServer).flatMap Item.wire

def key : ConnKey := ⟨t.client.text, t.server.text⟩

/-- The frame is one of this direction. -/
def Sends (toServer : Bool) (f : TCPFrame) : Prop :=
  if toServer then f.src = t.client ∧ f.dst = t.server else f.src = t.server ∧ f.dst = t.client

instance (toServer : Bool) (f : TCPFrame) : Decidable (t.Sends toServer f) :=
  inferInstanceAs (Decidable (ite ..))

end Talk

/-- A frame of a recording: one of a connection, or one of other traffic. -/
inductive Heard where
  | tcp (f : TCPFrame)
  | other (p : Packet) (link : p.link = linkEthernet)
      (ignored : tcpPacket p.data = .ok none ∨ ∃ q, tcpPacket p.data = .ok (some q) ∧ q.place = none)

def Heard.packet : Heard → Packet
  | tcp f => ⟨linkEthernet, f.bytes⟩
  | other p .. => p

/-- The frames of connections, with their numbers in the recording. -/
def numbered : (num : Nat) → List Heard → List (Nat × TCPFrame)
  | _, [] => []
  | num, .tcp f :: hs => (num, f) :: numbered (num + 1) hs
  | num, .other .. :: hs => numbered (num + 1) hs

/-- The frame carries the bytes of the cut. -/
structure Carries (isn : UInt32) {B : Bytes} (e : Nat × TCPFrame) (c : Cut B) : Prop where
  frame : c.frame = e.1
  seq : (c.segment (isn + 1)).seq = e.2.seq
  payload : (c.segment (isn + 1)).payload = e.2.payload

/-- The frames of a direction from its last SYN on: they carry a part of the stream or no data, and together they have
    every byte of it. What was recorded before that SYN does not matter. -/
structure Whole (isn : UInt32) (B : Bytes) (own : List (Nat × TCPFrame)) (cuts : List (Cut B)) : Prop where
  parts : ∃ before first after, own = before ++ first :: after ∧ first.2.syn = true ∧ first.2.seq = isn ∧
    (∀ e ∈ after, e.2.syn = false) ∧ List.Forall₂ (Carries isn) (after.filter fun e => e.2.payload ≠ []) cuts
  all : ∀ x, x < B.length → Captured cuts x

/-- A recording of talks between different endpoints. -/
structure Recording where
  talks : List Talk
  heard : List Heard
  distinct : talks.Pairwise fun t u => t.client ≠ u.client ∨ t.server ≠ u.server
  known : ∀ e ∈ numbered 1 heard, ∃ t ∈ talks, ∃ toServer, t.Sends toServer e.2
  whole : ∀ t ∈ talks, ∀ toServer, Whole (t.isn toServer) (t.stream toServer)
    ((numbered 1 heard).filter fun e => t.Sends toServer e.2) (t.cuts toServer)

def Recording.packets (r : Recording) : List Packet := r.heard.map Heard.packet

/-- The conversation has what the talk said. -/
structure Recovered (t : Talk) (v : Conversation) : Prop where
  client : v.client = t.client.text
  server : v.server = t.server.text
  connectRequests : v.connectRequests = (t.items true).countP Item.isCR + (t.items false).countP Item.isCR
  connectConfirms : v.connectConfirms = (t.items true).countP Item.isCC + (t.items false).countP Item.isCC
  gaps : v.gaps = 0
  dropped : v.dropped = 0
  sorted : v.pdus.Pairwise fun p q => p.frame ≤ q.frame
  /-- The PDUs of a direction are those that were sent. -/
  pdus : ∀ d, ((v.pdus.filter fun p => p.fromClient == d).map PDU.data).Perm ((t.items d).filterMap Item.s7)
  /-- They are in the order in which they were sent if the direction was recorded in order. -/
  ordered : ∀ d, (t.cuts d).Pairwise (fun c c' => c.off ≤ c'.off) →
    (v.pdus.filter fun p => p.fromClient == d).map PDU.data = (t.items d).filterMap Item.s7

/-! ### Frames of a talk -/

section Own
variable {t u : Talk} {toServer : Bool} {f : TCPFrame}

theorem place_of_sends (h : t.Sends toServer f) : f.packet.place = some (t.key, toServer) := by
  cases toServer with
  | true =>
    obtain ⟨hsrc, hdst⟩ := h
    rw [TCPPacket.place, if_pos (by rw [TCPFrame.packet, hdst]; exact t.serverPort)]
    rw [TCPFrame.packet, hsrc, hdst]
    rfl
  | false =>
    obtain ⟨hsrc, hdst⟩ := h
    rw [TCPPacket.place, if_neg (by rw [TCPFrame.packet, hdst]; exact t.clientPort),
      if_pos (by rw [TCPFrame.packet, hsrc]; exact t.serverPort)]
    rw [TCPFrame.packet, hsrc, hdst]
    rfl

theorem Talk.key_inj (h : t.key = u.key) : t.client = u.client ∧ t.server = u.server := by
  obtain ⟨hclient, hserver⟩ := ConnKey.mk.inj h
  exact ⟨Endpoint.text_inj hclient, Endpoint.text_inj hserver⟩

theorem sends_congr (h : t.key = u.key) : t.Sends toServer f ↔ u.Sends toServer f := by
  obtain ⟨hclient, hserver⟩ := Talk.key_inj h
  rw [Talk.Sends, Talk.Sends, hclient, hserver]

/-- A frame of a connection as it arrives. -/
def arrived (e : Nat × TCPFrame) : Option Arrival := e.2.packet.place.map fun r => ⟨e.1, r.1, r.2, e.2.packet⟩

theorem arrivalsFrom_heard (num : Nat) (hs : List Heard) :
    arrivalsFrom num (hs.map Heard.packet) = (numbered num hs).filterMap arrived := by
  induction hs generalizing num with
  | nil => rfl
  | cons h hs ih =>
    rw [List.map_cons, arrivalsFrom, ih]
    cases h with
    | tcp f =>
      rw [Heard.packet, arrival, f.tcpPacket_bytes, numbered]
      show (f.packet.place.map fun r => (⟨num, r.1, r.2, f.packet⟩ : Arrival)).toList ++ _ = _
      rw [List.filterMap_cons, arrived]
      cases f.packet.place <;> rfl
    | other p link ignored =>
      rw [numbered, Heard.packet, arrival]
      rcases ignored with h | ⟨q, h, hplace⟩
      · rw [h]
        rfl
      · rw [h]
        simp [hplace]

theorem heard_taken (hs : List Heard) : ∀ p ∈ hs.map Heard.packet, refusal p = none := by
  intro p hp
  obtain ⟨h, -, rfl⟩ := List.mem_map.mp hp
  cases h with
  | tcp f =>
    rw [Heard.packet, refusal, if_neg (not_not.mpr rfl), f.tcpPacket_bytes]
  | other p link ignored =>
    rw [Heard.packet, refusal, if_neg (not_not.mpr link)]
    rcases ignored with h | ⟨q, h, -⟩ <;> rw [h]

/-- The frames of a direction, out of all that arrive. -/
theorem own_filter {es : List (Nat × TCPFrame)} {talks : List Talk}
    (hknown : ∀ e ∈ es, ∃ t ∈ talks, ∃ toServer, t.Sends toServer e.2) (t : Talk) (d : Bool) :
    (connections.own (es.filterMap arrived) t.key).filter (fun a => a.toServer == d) =
      (es.filter fun e => t.Sends d e.2).map fun e => ⟨e.1, t.key, d, e.2.packet⟩ := by
  induction es with
  | nil => rfl
  | cons e es ih =>
    obtain ⟨⟨u, -, d', hu⟩, hes⟩ := List.forall_mem_cons.mp hknown
    have harrived : arrived e = some ⟨e.1, u.key, d', e.2.packet⟩ := by
      rw [arrived, place_of_sends hu]
      rfl
    have hsends : t.Sends d e.2 ↔ u.key = t.key ∧ d' = d := by
      constructor
      · intro ht
        have hplace := (place_of_sends ht).symm.trans (place_of_sends hu)
        obtain ⟨hkey, hd⟩ := Prod.mk.inj (Option.some.inj hplace)
        exact ⟨hkey.symm, hd.symm⟩
      · rintro ⟨hkey, rfl⟩
        exact (sends_congr hkey).mp hu
    have hrest := ih hes
    rw [List.filterMap_cons_some harrived]
    by_cases hboth : u.key = t.key ∧ d' = d
    · obtain ⟨hkey, rfl⟩ := hboth
      rw [List.filter_cons_of_pos (by simpa using hsends.mpr ⟨hkey, rfl⟩), List.map_cons, ← hrest, Keyed.own,
        List.filter_cons_of_pos (by simp [connections, hkey]), List.filter_cons_of_pos (by simp), hkey]
      rfl
    · rw [List.filter_cons_of_neg (by simpa using mt hsends.mp hboth), ← hrest, Keyed.own, Keyed.own, List.filter_filter,
        List.filter_filter, List.filter_cons_of_neg]
      rw [not_and_or] at hboth
      rcases hboth with hkey | hd
      · simp [connections, hkey]
      · simp [hd]

section Cuts
variable {isn : UInt32} {B : Bytes} {cuts : List (Cut B)} {e : Nat × TCPFrame} {key : ConnKey} {d : Bool}

theorem Carries.segment_eq {c : Cut B} (h : Carries isn e c) (hdata : e.2.payload ≠ []) :
    c.segment (isn + 1) = ⟨e.1, e.2.seq, e.2.payload, hdata⟩ := by
  obtain ⟨hframe, hseq, hpayload⟩ := h
  rw [Segment.mk.injEq]
  exact ⟨hframe, hseq, hpayload⟩

/-- Frames without a SYN add what they carry to the flow. By induction on the frames. -/
theorem foldl_apply_parts {es : List (Nat × TCPFrame)} (hsyn : ∀ e ∈ es, e.2.syn = false)
    (hparts : List.Forall₂ (Carries isn) (es.filter fun e => e.2.payload ≠ []) cuts) (f : Flow) :
    (es.map fun e => (⟨e.1, key, d, e.2.packet⟩ : Arrival)).foldl Arrival.apply f =
      { f with segs := f.segs ++ cuts.map (Cut.segment (isn + 1)) } := by
  induction es generalizing cuts f with
  | nil =>
    cases hparts
    rw [List.map_nil, List.map_nil, List.append_nil]
    rfl
  | cons e es ih =>
    obtain ⟨he, hes⟩ := List.forall_mem_cons.mp hsyn
    rw [List.map_cons, List.foldl_cons]
    by_cases hdata : e.2.payload = []
    · have hkeep : Arrival.apply f ⟨e.1, key, d, e.2.packet⟩ = f := by
        simp [Arrival.apply, Flow.frame, TCPFrame.packet, he, hdata]
      rw [List.filter_cons_of_neg (by simp [hdata])] at hparts
      rw [hkeep]
      exact ih hes hparts f
    · rw [List.filter_cons_of_pos (by simp [hdata])] at hparts
      obtain ⟨c, cuts', hc, hcuts, rfl⟩ := List.forall₂_cons_left_iff.mp hparts
      have hadd : Arrival.apply f ⟨e.1, key, d, e.2.packet⟩ = { f with segs := f.segs ++ [c.segment (isn + 1)] } := by
        rw [hc.segment_eq hdata]
        simp [Arrival.apply, Flow.frame, TCPFrame.packet, he, hdata]
      rw [hadd, ih hes hcuts, List.map_cons, List.append_assoc]
      rfl

/-- What the frames of a direction make of its flow. -/
theorem Whole.foldl_apply {own : List (Nat × TCPFrame)} (h : Whole isn B own cuts) :
    (own.map fun e => (⟨e.1, key, d, e.2.packet⟩ : Arrival)).foldl Arrival.apply {} = recorded true isn cuts := by
  obtain ⟨before, first, after, rfl, hsyn, hseq, hgoesOn, hparts⟩ := h.parts
  have hstart : ∀ f : Flow, Arrival.apply f ⟨first.1, key, d, first.2.packet⟩ = ⟨true, isn, []⟩ := by
    intro f
    rw [Arrival.apply, Flow.frame, TCPFrame.packet, hsyn, hseq]
    rfl
  rw [List.map_append, List.foldl_append, List.map_cons, List.foldl_cons, hstart, foldl_apply_parts hgoesOn hparts]
  rfl

/-- Frames with growing numbers carry the parts in the order of their offsets: the flow is in sequence. -/
theorem inSequence_recorded (hnum : cuts.Pairwise fun c c' => c.frame ≤ c'.frame) (hshort : B.length < 2 ^ 30)
    (hoff : cuts.Pairwise fun c c' => c.off ≤ c'.off) : (recorded true isn cuts).InSequence := by
  rw [Flow.InSequence, recorded, List.pairwise_map]
  have hdiff : ∀ c : Cut B, seqDiff (c.segment (isn + 1)).seq (isn + 1) = c.off := by
    intro c
    have hle := c.le
    have := c.seqDiff_segment (isn + 1) (o := 0) ⟨by omega, by omega⟩
    simpa using this
  refine (hnum.and hoff).imp fun {c c'} h => ⟨h.1, ?_⟩
  show seqDiff (c.segment (isn + 1)).seq (isn + 1) ≤ seqDiff (c'.segment (isn + 1)).seq (isn + 1)
  rw [hdiff, hdiff]
  exact Int.ofNat_le.mpr h.2

end Cuts

end Own

/-! ### The conversations of a recording -/

section Numbers

theorem num_of_mem_numbered {num : Nat} {hs : List Heard} {e : Nat × TCPFrame} (h : e ∈ numbered num hs) : num ≤ e.1 := by
  induction hs generalizing num with
  | nil => cases h
  | cons x hs ih =>
    cases x with
    | other p link ignored => exact Nat.le_of_succ_le (ih h)
    | tcp f =>
      rcases List.mem_cons.mp h with rfl | h
      · exact Nat.le_refl _
      · exact Nat.le_of_succ_le (ih h)

theorem pairwise_numbered (num : Nat) (hs : List Heard) : (numbered num hs).Pairwise fun e e' => e.1 < e'.1 := by
  induction hs generalizing num with
  | nil => exact .nil
  | cons x hs ih =>
    cases x with
    | other p link ignored => exact ih (num + 1)
    | tcp f => exact .cons (fun e he => num_of_mem_numbered he) (ih (num + 1))

/-- The cuts of a direction have growing frame numbers, as its frames do. -/
theorem Whole.pairwise_frame {isn : UInt32} {B : Bytes} {own : List (Nat × TCPFrame)} {cuts : List (Cut B)}
    (h : Whole isn B own cuts) (hown : own.Pairwise fun e e' => e.1 < e'.1) :
    cuts.Pairwise fun c c' => c.frame ≤ c'.frame := by
  obtain ⟨before, first, after, rfl, -, -, -, hparts⟩ := h.parts
  have hframes : cuts.map Cut.frame = (after.filter fun e => e.2.payload ≠ []).map Prod.fst := by
    rw [← List.forall₂_eq_eq_eq, List.forall₂_map_left_iff, List.forall₂_map_right_iff]
    exact hparts.flip.imp fun c e hc => hc.frame
  have hsub : (after.filter fun e => e.2.payload ≠ []).Sublist (before ++ first :: after) :=
    List.filter_sublist.trans ((List.sublist_cons_self first after).trans (List.sublist_append_right before _))
  have hnums := List.pairwise_map.mpr (hown.sublist hsub)
  rw [← hframes] at hnums
  exact (List.pairwise_map.mp hnums).imp Nat.le_of_lt

end Numbers

namespace Recording
variable (r : Recording)

/-- The frames of S7 traffic as they arrive. -/
def arrivals : List Arrival := arrivalsFrom 1 r.packets

theorem arrivals_eq : r.arrivals = (numbered 1 r.heard).filterMap arrived := arrivalsFrom_heard 1 r.heard

variable {r} {t : Talk}

theorem flowOf_own (ht : t ∈ r.talks) (d : Bool) :
    flowOf d (connections.own r.arrivals t.key) = recorded true (t.isn d) (t.cuts d) := by
  rw [flowOf, arrivals_eq, own_filter r.known]
  exact (r.whole t ht d).foldl_apply

theorem mem_keys_iff {k : ConnKey} : k ∈ connections.keys r.arrivals ↔ k ∈ r.talks.map Talk.key := by
  rw [Keyed.mem_keys, List.mem_map, arrivals_eq]
  constructor
  · rintro ⟨a, ha, rfl⟩
    obtain ⟨e, he, hae⟩ := List.mem_filterMap.mp ha
    obtain ⟨t, ht, d, hsends⟩ := r.known e he
    rw [arrived, place_of_sends hsends] at hae
    cases hae
    exact ⟨t, ht, rfl⟩
  · rintro ⟨t, ht, rfl⟩
    obtain ⟨before, first, after, hown, -⟩ := (r.whole t ht true).parts
    have hfirst : first ∈ before ++ first :: after := List.mem_append_right before List.mem_cons_self
    obtain ⟨hmem, hsends⟩ := List.mem_filter.mp (hown ▸ hfirst)
    refine ⟨⟨first.1, t.key, true, first.2.packet⟩, List.mem_filterMap.mpr ⟨first, hmem, ?_⟩, rfl⟩
    rw [arrived, place_of_sends (of_decide_eq_true hsends)]
    rfl

theorem nodup_keys (r : Recording) : (r.talks.map Talk.key).Nodup := by
  refine List.pairwise_map.mpr (r.distinct.imp fun {t u} hne heq => ?_)
  obtain ⟨hclient, hserver⟩ := Talk.key_inj heq
  exact hne.elim (· hclient) (· hserver)

/-- The connections of the capture are those of the talks. -/
theorem connsOf_arrivals (r : Recording) :
    ∃ ts : List Talk, ts.Perm r.talks ∧
      connsOf r.arrivals = ts.map fun t => connOf t.key (connections.own r.arrivals t.key) := by
  have hperm : (connections.keys r.arrivals).Perm (r.talks.map Talk.key) :=
    (List.perm_ext_iff_of_nodup (Keyed.nodup_keys _ _) r.nodup_keys).mpr fun _ => mem_keys_iff
  have hself : List.Forall₂ (fun k t => k = Talk.key t) (r.talks.map Talk.key) r.talks :=
    List.forall₂_map_left_iff.mpr (List.forall₂_same.mpr fun t _ => rfl)
  obtain ⟨ts, hts, hsame⟩ := List.perm_comp_forall₂ hperm hself
  refine ⟨ts, hsame, ?_⟩
  have hkeys : connections.keys r.arrivals = ts.map Talk.key := by
    rw [← List.forall₂_eq_eq_eq]
    exact List.forall₂_map_right_iff.mpr hts
  rw [connsOf, hkeys, List.map_map]
  rfl

/-- The connection of a talk becomes a conversation that has what was said. -/
theorem conversation_recovered (ht : t ∈ r.talks) :
    ∃ v, (connOf t.key (connections.own r.arrivals t.key)).conversation = .ok v ∧ Recovered t v := by
  have hup : (connOf t.key (connections.own r.arrivals t.key)).up = recorded true (t.isn true) (t.cuts true) :=
    flowOf_own ht true
  have hdown : (connOf t.key (connections.own r.arrivals t.key)).down = recorded true (t.isn false) (t.cuts false) :=
    flowOf_own ht false
  have hkey : (connOf t.key (connections.own r.arrivals t.key)).key = t.key := rfl
  generalize connOf t.key (connections.own r.arrivals t.key) = c at hup hdown hkey
  obtain ⟨up, hflowUp, hdataUp, hcrUp, hccUp, hdroppedUp⟩ :=
    flowPDUs_whole true (t.isn true) (t.short true) (r.whole t ht true).all
  obtain ⟨down, hflowDown, hdataDown, hcrDown, hccDown, hdroppedDown⟩ :=
    flowPDUs_whole false (t.isn false) (t.short false) (r.whole t ht false).all
  have hown : ∀ d, ((numbered 1 r.heard).filter fun e => t.Sends d e.2).Pairwise fun e e' => e.1 < e'.1 := fun d =>
    (pairwise_numbered 1 r.heard).sublist List.filter_sublist
  have hseq : ∀ d, (t.cuts d).Pairwise (fun c c' => c.off ≤ c'.off) →
      (recorded true (t.isn d) (t.cuts d)).InSequence := fun d =>
    inSequence_recorded ((r.whole t ht d).pairwise_frame (hown d)) (t.short d)
  have hclient := (flowPDUs_frames hflowUp).1
  have hserver := (flowPDUs_frames hflowDown).1
  have hsorted := fun h => (hseq true h).pdus_sorted hflowUp
  have hsorted' := fun h => (hseq false h).pdus_sorted hflowDown
  rw [← hup] at hflowUp
  rw [← hdown] at hflowDown
  have hfromClient : (fun p : PDU => p.fromClient == true) = fun p => p.fromClient := funext fun p => beq_true _
  have hfromServer : (fun p : PDU => p.fromClient == false) = fun p => !p.fromClient := funext fun p => beq_false _
  refine ⟨_, conversation_of_flows hflowUp hflowDown, ?_⟩
  constructor
  · rw [hkey]
    rfl
  · rw [hkey]
    rfl
  · rw [hcrUp, hcrDown]
  · rw [hccUp, hccDown]
  · rfl
  · rw [hdroppedUp, hdroppedDown]
  · exact List.pairwise_insertionSort _ _
  · rintro (_ | _)
    · rw [← hdataDown, hfromServer]
      exact (mergePDUs_perm hclient hserver).2.map _
    · rw [← hdataUp, hfromClient]
      exact (mergePDUs_perm hclient hserver).1.map _
  · rintro (_ | _) horder
    · rw [← hdataDown, hfromServer]
      exact congrArg _ ((mergePDUs_fromServer hclient hserver).mpr (hsorted' horder))
    · rw [← hdataUp, hfromClient]
      exact congrArg _ ((mergePDUs_fromClient hclient hserver).mpr (hsorted horder))

end Recording

/-- Every connection becomes a conversation. -/
theorem conversationsOf_forall₂ {α : Type} {R : α → Conversation → Prop} {conn : α → Conn} {l : List α}
    (h : ∀ a ∈ l, ∃ v, (conn a).conversation = .ok v ∧ R a v) :
    ∃ convs, conversationsOf (l.map conn) = .ok convs ∧ List.Forall₂ R l convs := by
  induction l with
  | nil => exact ⟨[], rfl, .nil⟩
  | cons a l ih =>
    obtain ⟨⟨v, hv, ha⟩, hl⟩ := List.forall_mem_cons.mp h
    obtain ⟨convs, hconvs, hall⟩ := ih hl
    refine ⟨v :: convs, ?_, .cons ha hall⟩
    rw [List.map_cons, conversationsOf, hv, Outcome.ok_bind, hconvs]
    rfl

/-- Reading a complete recording gives back what was said. Whatever traffic is mixed into it, however the connections
    are interleaved, the bytes cut into frames, and SYNs repeated before the data and data frames repeated or late, there
    is one conversation for each talk, and it has the PDUs of the talk, each once. -/
theorem read_recording {order : List Conn → List Conn} (horder : ∀ l, (order l).Perm l) (r : Recording) {b : Bytes}
    (hfile : packets b = .ok r.packets) :
    ∃ convs ts, read order b = .ok convs ∧ ts.Perm r.talks ∧ List.Forall₂ Recovered ts convs := by
  obtain ⟨ts, hperm, hconns⟩ := r.connsOf_arrivals
  obtain ⟨convs, hconvs, hall⟩ := conversationsOf_forall₂ fun t ht =>
    Recording.conversation_recovered (hperm.mem_iff.mp ht)
  refine ⟨convs, ts, ?_, hperm, hall⟩
  rw [← hconns] at hconvs
  exact (read_taken horder hfile (heard_taken r.heard)).trans hconvs

/-- A frame of the talk below. -/
def helloFrame (toServer : Bool) (seq : UInt32) (flags : UInt8) (payload : Bytes) (h : payload.length < 1000) :
    TCPFrame where
  src := if toServer then ⟨[10, 0, 0, 1], 49159, rfl⟩ else ⟨[10, 0, 0, 2], 102, rfl⟩
  dst := if toServer then ⟨[10, 0, 0, 2], 102, rfl⟩ else ⟨[10, 0, 0, 1], 49159, rfl⟩
  seq := seq
  flags := flags
  payload := payload
  macs := List.replicate 12 0
  vlan := none
  tos := 0
  ident := [0, 0]
  fragment := 0
  ttl := 64
  ipChecksum := [0, 0]
  ipOptions := []
  ack := [0, 0, 0, 0]
  reserved := 0
  window := List.replicate 6 0
  tcpOptions := []
  padding := [0, 0]
  macs_length := rfl
  ident_length := rfl
  ipChecksum_length := rfl
  ack_length := rfl
  window_length := rfl
  ipWords := 0
  ipOptions_length := rfl
  tcpWords := 0
  tcpOptions_length := rfl
  unfragmented := rfl
  short := Nat.lt_trans (Nat.add_lt_add_left h 40) (by decide)

/-- A connect request and a job, the job recorded first. -/
def helloTalk : Talk where
  client := ⟨[10, 0, 0, 1], 49159, rfl⟩
  server := ⟨[10, 0, 0, 2], 102, rfl⟩
  isn toServer := if toServer then 7 else 9
  items toServer := if toServer then [connectItem, jobItem] else []
  cuts
    | true => [⟨5, 11, 15, Nat.succ_pos 14, by decide⟩, ⟨6, 0, 11, Nat.succ_pos 10, by decide⟩]
    | false => []
  serverPort := rfl
  clientPort := by decide
  short := by decide

/-- Its frames, the first of which is repeated, and the fourth of another protocol. -/
def helloFrames : List Heard :=
  [.tcp (helloFrame true 7 2 [] (by decide)), .tcp (helloFrame true 7 2 [] (by decide)),
    .tcp (helloFrame false 9 0x12 [] (by decide)),
    .other ⟨linkEthernet, List.replicate 60 0⟩ rfl (.inl (by decide)),
    .tcp (helloFrame true 19 0x18 jobItem.wire (by decide)), .tcp (helloFrame true 8 0x18 connectItem.wire (by decide))]

theorem whole_hello (toServer : Bool) : Whole (helloTalk.isn toServer) (helloTalk.stream toServer)
    ((numbered 1 helloFrames).filter fun e => helloTalk.Sends toServer e.2) (helloTalk.cuts toServer) := by
  cases toServer with
  | true =>
    refine ⟨⟨[_], _, _, rfl, rfl, rfl, by decide, ?_⟩, by decide⟩
    exact .cons ⟨rfl, rfl, rfl⟩ (.cons ⟨rfl, rfl, rfl⟩ .nil)
  | false => exact ⟨⟨[], _, _, rfl, rfl, rfl, by decide, .nil⟩, nofun⟩

def helloRecording : Recording where
  talks := [helloTalk]
  heard := helloFrames
  distinct := List.pairwise_singleton _ _
  known := by decide
  whole t ht := List.mem_singleton.mp ht ▸ whole_hello

theorem short_hello : ∀ h ∈ helloFrames, h.packet.data.length < 2 ^ 32 := by decide

def helloFile : PcapFile where
  bo := .little
  nano := false
  unread := List.replicate 16 0
  link := 1
  records := helloFrames.attach.map fun h =>
    ⟨List.replicate 8 0, List.replicate 4 0, h.1.packet.data, List.length_replicate, List.length_replicate,
      short_hello h.1 h.2⟩
  unread_length := List.length_replicate

theorem read_recording_hello :
    ∃ v, read id helloFile.wire = .ok [v] ∧ Recovered helloTalk v ∧
      (v.pdus.filter fun p => p.fromClient == true).map PDU.data = [[0x32, 1, 0, 0, 0, 0, 0, 0]] := by
  obtain ⟨convs, ts, hread, hperm, hall⟩ := read_recording (fun l => .refl l) helloRecording (packets_pcapFile helloFile)
  obtain rfl := List.perm_singleton.mp hperm
  obtain ⟨v, rest, hv, hrest, rfl⟩ := List.forall₂_cons_left_iff.mp hall
  obtain rfl := List.forall₂_nil_left_iff.mp hrest
  exact ⟨v, hread, hv, List.perm_singleton.mp (hv.pdus true)⟩

end S7Comm.Capture
