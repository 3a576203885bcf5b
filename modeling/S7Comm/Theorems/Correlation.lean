import S7Comm.Client.Exchanges
import S7Comm.Theorems.Header
import S7Comm.Theorems.SendReceive

/-! Response correlation. References count up through 1..65535 and start again at 1, so two requests that are fewer
    than 65535 apart have different references; `sendReceive` takes sections only from a PDU that carries the
    reference of its request. -/

namespace S7Comm
open Go

/-! ### References -/

theorem and_65535 (n : Nat) : n &&& 65535 = n % 65536 := Nat.and_two_pow_sub_one_eq_mod n 16

/-- The reference of the `k`-th request from a counter whose low 16 bits are `low`. -/
def refAt (low k : Nat) : Nat := (low + k) % 65535 + 1

theorem low_add_one (n : UInt32) : ((n + 1) &&& 0xFFFF).toNat = (n.toNat + 1) % 65536 := by
  have hn := n.toNat_lt
  simp only [UInt32.toNat_and, UInt32.toNat_add, UInt32.reduceToNat, and_65535]
  omega

theorem nextPDURefFrom_of_ne {n : UInt32} (h : (n + 1) &&& 0xFFFF ≠ 0) :
    nextPDURefFrom n = (((n + 1) &&& 0xFFFF).toUInt16, n + 1) := by
  rw [nextPDURefFrom, dif_pos h]

theorem nextPDURefFrom_of_eq {n : UInt32} (h : (n + 1) &&& 0xFFFF = 0) :
    nextPDURefFrom n = nextPDURefFrom (n + 1) := by
  rw [nextPDURefFrom, dif_neg (not_not.mpr h)]

/-- A counter below the wrap gives its successor as the reference. -/
theorem nextPDURefFrom_of_lt {n : UInt32} (h : n.toNat % 65536 < 65535) :
    (nextPDURefFrom n).1.toNat = n.toNat % 65536 + 1 ∧ (nextPDURefFrom n).2.toNat % 65536 = n.toNat % 65536 + 1 := by
  have hlow := low_add_one n
  have hne : (n + 1) &&& 0xFFFF ≠ 0 := by
    intro h0
    rw [h0, UInt32.toNat_zero] at hlow
    omega
  rw [nextPDURefFrom_of_ne hne, UInt32.toNat_toUInt16, hlow, UInt32.toNat_add, UInt32.toNat_one]
  constructor <;> omega

/-- The next reference, and the low bits of the counter after it. -/
theorem nextPDURefFrom_spec (n : UInt32) :
    (nextPDURefFrom n).1.toNat = refAt (n.toNat % 65536) 0 ∧
      (nextPDURefFrom n).2.toNat % 65536 = refAt (n.toNat % 65536) 0 := by
  by_cases hlt : n.toNat % 65536 < 65535
  · have href : refAt (n.toNat % 65536) 0 = n.toNat % 65536 + 1 := by
      unfold refAt
      omega
    rw [href]
    exact nextPDURefFrom_of_lt hlt
  · -- The low bits wrap to zero, which is skipped.
    have hlow := low_add_one n
    have hwrap : n.toNat % 65536 = 65535 := by omega
    have hzero : (n + 1) &&& 0xFFFF = 0 := by
      apply UInt32.toNat_inj.mp
      rw [hlow, UInt32.toNat_zero]
      omega
    have hnext : (n + 1).toNat % 65536 = 0 := by
      rw [UInt32.toNat_add, UInt32.toNat_one]
      omega
    have h := nextPDURefFrom_of_lt (n := n + 1) (by omega)
    rw [hnext] at h
    rw [nextPDURefFrom_of_eq hzero, hwrap]
    exact h

/-- The counter after a request stands one reference further. -/
theorem refAt_succ (low k : Nat) : refAt (refAt low 0) k = refAt low (k + 1) := by
  simp only [refAt]
  omega

/-- Requests fewer than 65535 apart have different references. -/
theorem refAt_injective {low j r : Nat} (hle : j ≤ r) (hlt : r - j < 65535) (h : refAt low j = refAt low r) : j = r := by
  simp only [refAt] at h
  omega

/-- The reference that the `k`-th request of a client takes. -/
def requestRefs (pduRef : UInt32) : Nat → UInt16
  | 0 => (nextPDURefFrom pduRef).1
  | k + 1 => requestRefs (nextPDURefFrom pduRef).2 k

theorem requestRefs_toNat (pduRef : UInt32) (k : Nat) :
    (requestRefs pduRef k).toNat = refAt (pduRef.toNat % 65536) k := by
  induction k generalizing pduRef with
  | zero => exact (nextPDURefFrom_spec pduRef).1
  | succ k ih => rw [requestRefs, ih, (nextPDURefFrom_spec pduRef).2, refAt_succ]

/-- A reference comes again only after 65535 requests. -/
theorem requestRefs_injective {pduRef : UInt32} {i j : Nat} (hi : i < j + 65535) (hj : j < i + 65535)
    (h : requestRefs pduRef i = requestRefs pduRef j) : i = j := by
  have hnat := congrArg UInt16.toNat h
  rw [requestRefs_toNat, requestRefs_toNat] at hnat
  rcases Nat.le_total i j with hle | hle
  · exact refAt_injective hle (by omega) hnat
  · exact (refAt_injective hle (by omega) hnat.symm).symm

theorem requestRefs_ne_zero (pduRef : UInt32) (i : Nat) : requestRefs pduRef i ≠ 0 := by
  intro h
  have hnat := requestRefs_toNat pduRef i
  rw [h, refAt] at hnat
  simp at hnat

/-- What one call does to the counter: one increment, or two where the first gives zero. -/
theorem nextPDURefFrom_increments (n : UInt32) :
    ∃ k : UInt32, (k = 1 ∨ k = 2 ∧ (n + 1) &&& 0xFFFF = 0) ∧ (n + k) &&& 0xFFFF ≠ 0 ∧
      nextPDURefFrom n = (((n + k) &&& 0xFFFF).toUInt16, n + k) := by
  by_cases hzero : (n + 1) &&& 0xFFFF = 0
  · have hlow := low_add_one n
    have hlow' := low_add_one (n + 1)
    have hne : (n + 1 + 1) &&& 0xFFFF ≠ 0 := by
      intro h
      rw [h, UInt32.toNat_zero, UInt32.toNat_add, UInt32.toNat_one] at hlow'
      rw [hzero, UInt32.toNat_zero] at hlow
      omega
    have htwo : n + 2 = n + 1 + 1 := by rw [UInt32.add_assoc]; rfl
    refine ⟨2, .inr ⟨rfl, hzero⟩, ?_⟩
    rw [htwo, nextPDURefFrom_of_eq hzero, nextPDURefFrom_of_ne hne]
    exact ⟨hne, rfl⟩
  · exact ⟨1, .inl rfl, hzero, nextPDURefFrom_of_ne hzero⟩

/-- The references of `m` calls, one after the other. -/
def nextPDURefs {σ : Type} : (m : Nat) → ClientM σ (List UInt16)
  | 0 => pure []
  | m + 1 => do
    let ref ← nextPDURef
    let refs ← nextPDURefs m
    pure (ref :: refs)

theorem nextPDURefs_eq {σ : Type} (m : Nat) (c : Client) (w : σ) :
    ∃ st', nextPDURefs m (c, w) = (.ok ((List.range m).map (requestRefs c.pduRef)), st') := by
  induction m generalizing c with
  | zero => exact ⟨(c, w), rfl⟩
  | succ m ih =>
    obtain ⟨st', hrest⟩ := ih { c with pduRef := (nextPDURefFrom c.pduRef).2 }
    have hfirst : nextPDURef (c, w) =
        (.ok (nextPDURefFrom c.pduRef).1, ({ c with pduRef := (nextPDURefFrom c.pduRef).2 }, w)) := rfl
    refine ⟨st', ?_⟩
    rw [nextPDURefs, Eff.bind_ok hfirst, Eff.bind_ok hrest, List.range_succ_eq_map, List.map_cons, List.map_map]
    rfl

/-- Among 65535 calls in a row no two have the same reference. -/
theorem nodup_requestRefs (pduRef : UInt32) (s len : Nat) (hlen : len ≤ 65535) :
    ((List.range' s len).map (requestRefs pduRef)).Nodup := by
  refine List.Nodup.map_on (fun i hi j hj h => ?_) List.nodup_range'
  rw [List.mem_range'_1] at hi hj
  exact requestRefs_injective (by omega) (by omega) h

/-- From every value of the counter, a call takes one increment or two, and the references of any number of calls are
    not zero and come again after 65535 calls at the earliest. -/
theorem pdu_refs_distinct {σ : Type} (c : Client) (w : σ) :
    (∃ k : UInt32, (k = 1 ∨ k = 2 ∧ (c.pduRef + 1) &&& 0xFFFF = 0) ∧ (c.pduRef + k) &&& 0xFFFF ≠ 0 ∧
      nextPDURef (c, w) =
        (.ok ((c.pduRef + k) &&& 0xFFFF).toUInt16, ({ c with pduRef := c.pduRef + k }, w))) ∧
      ∀ m, ∃ refs st', nextPDURefs m (c, w) = (.ok refs, st') ∧ refs.length = m ∧ 0 ∉ refs ∧
        ∀ s, ((refs.drop s).take 65535).Nodup := by
  obtain ⟨k, hk, hne, hnext⟩ := nextPDURefFrom_increments c.pduRef
  refine ⟨⟨k, hk, hne, by rw [nextPDURef, hnext]⟩, fun m => ?_⟩
  obtain ⟨st', hrefs⟩ := nextPDURefs_eq m c w
  refine ⟨_, st', hrefs, by simp, fun hmem => ?_, fun s => ?_⟩
  · obtain ⟨i, -, hi⟩ := List.mem_map.mp hmem
    exact requestRefs_ne_zero c.pduRef i hi
  · rw [← List.map_drop, ← List.map_take, List.range_eq_range', List.drop_range']
    rcases Nat.le_total (m - s) 65535 with hle | hle
    · rw [List.take_range'_of_length_le hle]
      exact nodup_requestRefs _ _ _ hle
    · rw [List.take_range'_of_length_ge hle]
      exact nodup_requestRefs _ _ _ (Nat.le_refl _)

/-! ### One exchange -/

/-- The PDU carries the reference of the request it answers. -/
def Echoes (low : Nat) (a : Arrival) : Prop :=
  ∀ header rest, parseS7Header a.pdu = .ok (header, rest) → header.pduRef.toNat = refAt low a.answers

theorem mem_of_readTSDU {w w' : Stream} {pdu : Bytes} (h : streamNet.readTSDU w = (.ok pdu, w')) :
    ∃ a ∈ w.inbox, a.pdu = pdu ∧ w'.taken = some a := by
  obtain ⟨inbox, current, taken⟩ := w
  cases hread : current.readErr with
  | some err =>
    simp [streamNet, hread] at h
  | none =>
    cases inbox with
    | nil => simp [streamNet, hread] at h
    | cons a inbox =>
      simp only [streamNet, hread, Prod.mk.injEq, Except.ok.injEq] at h
      obtain ⟨rfl, rfl⟩ := h
      exact ⟨a, List.mem_cons_self, rfl, rfl⟩

/-- During an exchange the stream holds only PDUs that were there or arrived. -/
def DuringExchange (c : Client) (inbox : List Arrival) (x : Exchange) (p : Client × Stream) : Prop :=
  p.1 = c ∧ p.2.current = x ∧ ∀ a ∈ p.2.inbox, a ∈ inbox ∨ a ∈ x.arrivals

theorem sendReceive_duringExchange (c : Client) (inbox : List Arrival) (x : Exchange) (req : Bytes) (ref : UInt16) :
    Eff.Preserves (DuringExchange c inbox x) (sendReceive streamNet req ref) := by
  refine sendReceive_preserves ?_ ?_ ?_ ref
  · rintro c' w ⟨hc, hx, hin⟩
    refine ⟨hc, hx, fun a ha => ?_⟩
    rcases List.mem_append.mp ha with h | h
    · exact hin a h
    · exact .inr (hx ▸ h)
  · intro c' w h
    exact h
  · rintro c' ⟨inbox', current, taken⟩ ⟨hc, hx, hin⟩
    cases hread : current.readErr with
    | some err =>
      simp only [streamNet, hread]
      exact ⟨hc, hx, hin⟩
    | none =>
      cases inbox' with
      | nil =>
        simp only [streamNet, hread]
        exact ⟨hc, hx, hin⟩
      | cons a inbox' =>
        simp only [streamNet, hread]
        exact ⟨hc, hx, fun b hb => hin b (List.mem_cons_of_mem a hb)⟩

/-- What one exchange does: its reference is the next one, the stream holds only PDUs that were there or arrived, and
    sections come from such a PDU. -/
theorem exchange_spec {c c' : Client} {inbox inbox' : List Arrival} {x : Exchange} {ended : Ended}
    (h : exchange c inbox x = (ended, c', inbox')) :
    ended.ref.toNat = refAt (c.pduRef.toNat % 65536) 0 ∧
      c'.pduRef.toNat % 65536 = refAt (c.pduRef.toNat % 65536) 0 ∧
      (∀ a ∈ inbox', a ∈ inbox ∨ a ∈ x.arrivals) ∧
      ∀ sections, ended.result = .ok sections →
        ∃ a, (a ∈ inbox ∨ a ∈ x.arrivals) ∧ ended.taken = some a ∧ responseSections a.pdu ended.ref = .ok sections := by
  obtain ⟨href, hcount⟩ := nextPDURefFrom_spec c.pduRef
  rcases hnext : nextPDURefFrom c.pduRef with ⟨ref, pduRef⟩
  rw [hnext] at href hcount
  have hstart : DuringExchange { c with pduRef } inbox x ({ c with pduRef }, { inbox, current := x }) :=
    ⟨rfl, rfl, fun a ha => .inl ha⟩
  have hkeep := sendReceive_duringExchange _ _ _ x.req ref _ hstart
  rcases hsend : sendReceive streamNet x.req ref ({ c with pduRef }, { inbox, current := x }) with ⟨result, c₁, w₁⟩
  rw [hsend] at hkeep
  obtain ⟨hc, -, hin⟩ := hkeep
  unfold exchange at h
  rw [hnext] at h
  dsimp only at h
  rw [hsend] at h
  cases h
  dsimp only at hc hin
  refine ⟨href, by rw [hc]; exact hcount, hin, ?_⟩
  intro sections hok
  dsimp only at hok
  rw [hok] at hsend
  obtain ⟨w₂, w₃, pdu, hwrite, hctx, hread, hsections, -⟩ := sendReceive_ok hsend
  obtain ⟨a, ha, rfl, htaken⟩ := mem_of_readTSDU hread
  obtain ⟨-, rfl⟩ := Prod.mk.inj hctx
  obtain ⟨-, rfl⟩ := Prod.mk.inj hwrite
  exact ⟨a, List.mem_append.mp ha, htaken, hsections⟩

/-! ### Runs -/

/-- Along a run whose next request has number `k`, every answer in the stream or still to come echoes a request that
    was issued before it arrived; then sections are taken only from the answer to the request itself. -/
theorem exchanges_correlated {low k : Nat} {c : Client} {inbox : List Arrival} {xs : List Exchange}
    (hc : ∀ m, refAt (c.pduRef.toNat % 65536) m = refAt low (k + m))
    (hinbox : ∀ a ∈ inbox, a.answers ≤ k ∧ Echoes low a)
    (hxs : ∀ (i : Nat) x, xs[i]? = some x → ∀ a ∈ x.arrivals, a.answers ≤ k + i ∧ Echoes low a)
    {i : Nat} {ended : Ended} {sections : Bytes × Bytes} (h : (exchanges c inbox xs)[i]? = some ended)
    (hok : ended.result = .ok sections) :
    ended.ref.toNat = refAt low (k + i) ∧
      ∃ a, ended.taken = some a ∧ responseSections a.pdu ended.ref = .ok sections ∧
        (k + i - a.answers < 65535 → a.answers = k + i) := by
  induction xs generalizing k c inbox i with
  | nil => simp [exchanges] at h
  | cons x xs ih =>
    rcases hx : exchange c inbox x with ⟨first, c', inbox'⟩
    obtain ⟨href, hcount, hin, htake⟩ := exchange_spec hx
    have harrive := hxs 0 x rfl
    have hknown : ∀ a, a ∈ inbox ∨ a ∈ x.arrivals → a.answers ≤ k ∧ Echoes low a := by
      rintro a (ha | ha)
      · exact hinbox a ha
      · exact harrive a ha
    simp only [exchanges, hx] at h
    cases i with
    | zero =>
      cases h
      obtain ⟨a, ha, htaken, hsections⟩ := htake sections hok
      obtain ⟨hle, hecho⟩ := hknown a ha
      refine ⟨href.trans (hc 0), a, htaken, hsections, fun hlt => ?_⟩
      -- The PDU has the reference of this request and of the one it answers.
      have hne : ended.ref ≠ 0 := by
        intro h0
        rw [h0, refAt] at href
        simp at href
      obtain ⟨header, rest, hparse, heq⟩ := responseSections_ref hsections hne
      have hsame : refAt low a.answers = refAt low k := by
        rw [← hecho header rest hparse, heq, href, hc 0, Nat.add_zero]
      exact refAt_injective hle hlt hsame
    | succ i =>
      have hc' : ∀ m, refAt (c'.pduRef.toNat % 65536) m = refAt low (k + 1 + m) := by
        intro m
        rw [hcount, refAt_succ, hc (m + 1), Nat.add_assoc, Nat.add_comm m 1]
      have hinbox' : ∀ a ∈ inbox', a.answers ≤ k + 1 ∧ Echoes low a := by
        intro a ha
        obtain ⟨hle, hecho⟩ := hknown a (hin a ha)
        exact ⟨Nat.le_succ_of_le hle, hecho⟩
      have hxs' : ∀ (j : Nat) y, xs[j]? = some y → ∀ a ∈ y.arrivals, a.answers ≤ k + 1 + j ∧ Echoes low a := by
        intro j y hy a ha
        have := hxs (j + 1) y hy a ha
        rwa [Nat.add_assoc, Nat.add_comm 1 j]
      have hrest := ih hc' hinbox' hxs' h
      rwa [Nat.add_assoc, Nat.add_comm 1 i] at hrest

/-- Correlation over any run of exchanges, from any value of the counter. The peer answers requests that were issued,
    in any order, late, repeatedly or not at all, and echoes their references; exchanges may be abandoned. When
    an exchange returns sections, the PDU it took them from answers its own request, unless that PDU answers a
    request issued 65535 or more requests before. -/
theorem response_correlation {c : Client} {xs : List Exchange}
    (hissued : ∀ (i : Nat) x, xs[i]? = some x → ∀ a ∈ x.arrivals, a.answers ≤ i)
    (hechoes : ∀ x ∈ xs, ∀ a ∈ x.arrivals, ∀ header rest, parseS7Header a.pdu = .ok (header, rest) →
      header.pduRef = requestRefs c.pduRef a.answers)
    {r : Nat} {ended : Ended} {sections : Bytes × Bytes} (h : (exchanges c [] xs)[r]? = some ended)
    (hok : ended.result = .ok sections) :
    ended.ref = requestRefs c.pduRef r ∧
      ∃ a, ended.taken = some a ∧ responseSections a.pdu ended.ref = .ok sections ∧
        (r - a.answers < 65535 → a.answers = r) := by
  have hxs : ∀ (i : Nat) x, xs[i]? = some x → ∀ a ∈ x.arrivals,
      a.answers ≤ 0 + i ∧ Echoes (c.pduRef.toNat % 65536) a := by
    intro i x hx a ha
    refine ⟨by rw [Nat.zero_add]; exact hissued i x hx a ha, fun header rest hparse => ?_⟩
    rw [hechoes x (List.mem_of_getElem? hx) a ha header rest hparse, requestRefs_toNat]
  obtain ⟨href, a, htaken, hsections, hanswers⟩ :=
    exchanges_correlated (k := 0) (fun m => by rw [Nat.zero_add]) (by simp) hxs h hok
  rw [Nat.zero_add] at href hanswers
  refine ⟨UInt16.toNat_inj.mp ?_, a, htaken, hsections, hanswers⟩
  rw [href, requestRefs_toNat]

/-- A client at the wrap of its references. -/
def wrapClient : Client := { connected := true, pduSize := 240, pduRef := 0xFFFE, rateLimit := 0 }

/-- The first exchange is abandoned, the second finds the late answer to the first, and the third its own answer. -/
def wrapExchanges : List Exchange := [
  { req := [], readErr := some (.sentinel .deadlineExceeded) },
  { req := [], arrivals := [⟨ackData 0xFFFF 0 0 [funcReadVar, 0] [], 0⟩] },
  { req := [], arrivals := [⟨ackData 2 0 0 [funcReadVar, 0] [], 2⟩] }]

theorem response_correlation_wrap :
    ∃ ended, (exchanges wrapClient [] wrapExchanges)[2]? = some ended ∧ ended.result = .ok ([funcReadVar, 0], []) ∧
      ended.ref = requestRefs wrapClient.pduRef 2 ∧
      ∃ a, ended.taken = some a ∧ (2 - a.answers < 65535 → a.answers = 2) := by
  have hrun : (exchanges wrapClient [] wrapExchanges)[2]? =
      some ⟨2, .ok ([funcReadVar, 0], []), some ⟨ackData 2 0 0 [funcReadVar, 0] [], 2⟩⟩ := by decide +kernel
  have hrefs : requestRefs wrapClient.pduRef 0 = 0xFFFF ∧ requestRefs wrapClient.pduRef 2 = 2 := by decide +kernel
  have hissued : ∀ (i : Nat) x, wrapExchanges[i]? = some x → ∀ a ∈ x.arrivals, a.answers ≤ i := by
    intro i x hx
    match i, hx with
    | 0, hx => cases hx; simp
    | 1, hx => cases hx; simp
    | 2, hx => cases hx; simp
    | i + 3, hx => simp [wrapExchanges] at hx
  have hechoes : ∀ x ∈ wrapExchanges, ∀ a ∈ x.arrivals, ∀ header rest, parseS7Header a.pdu = .ok (header, rest) →
      header.pduRef = requestRefs wrapClient.pduRef a.answers := by
    intro x hx a ha header rest hparse
    simp only [wrapExchanges, List.mem_cons, List.not_mem_nil, or_false] at hx
    rcases hx with rfl | rfl | rfl
    · simp at ha
    · rw [List.mem_singleton.mp ha, parseS7Header_ackData (by simp) (by simp)] at hparse
      cases hparse
      rw [List.mem_singleton.mp ha]
      exact hrefs.1.symm
    · rw [List.mem_singleton.mp ha, parseS7Header_ackData (by simp) (by simp)] at hparse
      cases hparse
      rw [List.mem_singleton.mp ha]
      exact hrefs.2.symm
  obtain ⟨href, a, htaken, -, hanswers⟩ := response_correlation hissued hechoes hrun rfl
  exact ⟨_, hrun, rfl, href, a, htaken, hanswers⟩

end S7Comm
