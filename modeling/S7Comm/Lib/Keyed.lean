import Mathlib.Tactic

/-! Entries by keys. Events come one after the other, each for the entry with its key; an entry is made when the first
    event for it comes. Whatever the events of other keys between them, an entry is what its own events make of it, and
    the entries are in the order of their first events. -/

namespace Go

section Keyed
variable {κ σ α : Type}

/-- How entries take events: the key of an entry and of an event, a new entry, and what an event does to one. -/
structure Keyed (κ σ α : Type) where
  keyOf : σ → κ
  key : α → κ
  init : α → σ
  step : σ → α → σ
  keyOf_init : ∀ e, keyOf (init e) = key e
  keyOf_step : ∀ s e, keyOf (step s e) = keyOf s

namespace Keyed
variable (m : Keyed κ σ α)

/-- What events make of an entry that the first of them starts. -/
def entry : List α → Option σ
  | [] => none
  | e :: es => some (es.foldl m.step (m.step (m.init e) e))

variable {m} in
theorem entry_append_singleton {es : List α} {e : α} (h : es ≠ []) {s : σ} (hs : m.entry es = some s) :
    m.entry (es ++ [e]) = some (m.step s e) := by
  cases es with
  | nil => exact absurd rfl h
  | cons a es =>
    cases hs
    rw [List.cons_append, entry, List.foldl_append]
    rfl

variable [DecidableEq κ]

/-- The entries after one more event. -/
def put (l : List σ) (e : α) : List σ :=
  if l.any (m.keyOf · == m.key e) then l.map fun s => if m.keyOf s = m.key e then m.step s e else s
  else l ++ [m.step (m.init e) e]

/-- The keys in the order in which they come first. -/
def keys (es : List α) : List κ := (es.map m.key).eraseDups

/-- The events with this key. -/
def own (es : List α) (k : κ) : List α := es.filter fun e => m.key e = k

variable {m} {es : List α} {e : α} {k : κ}

theorem own_append (es es' : List α) (k : κ) : m.own (es ++ es') k = m.own es k ++ m.own es' k := List.filter_append _ _

theorem own_singleton_self : m.own [e] (m.key e) = [e] := by simp [own]

theorem own_singleton_of_ne (h : k ≠ m.key e) : m.own [e] k = [] := by simp [own, h.symm]

theorem mem_keys : k ∈ m.keys es ↔ ∃ e ∈ es, m.key e = k := by
  simp [keys]

theorem own_ne_nil (h : k ∈ m.keys es) : m.own es k ≠ [] := by
  obtain ⟨e, he, rfl⟩ := mem_keys.mp h
  exact List.ne_nil_of_mem (List.mem_filter.mpr ⟨he, decide_eq_true rfl⟩)

theorem own_eq_nil (h : k ∉ m.keys es) : m.own es k = [] := by
  refine List.filter_eq_nil_iff.mpr fun e he hk => h (mem_keys.mpr ⟨e, he, of_decide_eq_true hk⟩)

theorem keys_append_singleton :
    m.keys (es ++ [e]) = if m.key e ∈ m.keys es then m.keys es else m.keys es ++ [m.key e] := by
  unfold keys
  rw [List.map_append, List.eraseDups_append]
  by_cases h : m.key e ∈ es.map m.key
  · simp [List.removeAll, List.mem_map.mp h]
  · have hnot : ∀ x ∈ es, m.key x ≠ m.key e := fun x hx heq => h (List.mem_map.mpr ⟨x, hx, heq⟩)
    have hrem : [m.key e].removeAll (es.map m.key) = [m.key e] := by
      simpa [List.removeAll] using hnot
    rw [if_neg (by simpa using hnot), List.map_singleton, hrem]
    rfl

theorem nodup_keys (m : Keyed κ σ α) (es : List α) : (m.keys es).Nodup := by
  induction es using List.reverseRecOn with
  | nil => exact .nil
  | append_singleton es e ih =>
    rw [keys_append_singleton]
    split_ifs with hmem
    · exact ih
    · exact List.nodup_append.mpr ⟨ih, List.nodup_singleton _, fun k hk k' hk' heq =>
        hmem (List.mem_singleton.mp hk' ▸ heq ▸ hk)⟩

theorem keyOf_entry {s : σ} (h : m.entry (m.own es k) = some s) : m.keyOf s = k := by
  rcases hown : m.own es k with _ | ⟨a, as⟩
  · rw [hown] at h
    cases h
  · rw [hown] at h
    cases h
    have hkey : m.key a = k := by
      have : a ∈ m.own es k := hown ▸ List.mem_cons_self ..
      exact of_decide_eq_true (List.mem_filter.mp this).2
    have hfold : ∀ (bs : List α) (s : σ), m.keyOf (bs.foldl m.step s) = m.keyOf s := by
      intro bs
      induction bs with
      | nil => exact fun s => rfl
      | cons b bs ih => exact fun s => (ih _).trans (m.keyOf_step s b)
    rw [hfold, m.keyOf_step, m.keyOf_init, hkey]

/-- The entries after all events: one for each key, in the order of the first events, made by its own events. -/
theorem foldl_put (m : Keyed κ σ α) (es : List α) :
    es.foldl m.put [] = (m.keys es).filterMap fun k => m.entry (m.own es k) := by
  induction es using List.reverseRecOn with
  | nil => rfl
  | append_singleton es e ih =>
    rw [List.foldl_append, List.foldl_cons, List.foldl_nil, ih]
    have hsome : ∀ k ∈ m.keys es, ∃ s, m.entry (m.own es k) = some s := by
      intro k hk
      rcases hown : m.own es k with _ | ⟨a, as⟩
      · exact absurd hown (own_ne_nil hk)
      · exact ⟨_, rfl⟩
    have hany : ((m.keys es).filterMap fun k => m.entry (m.own es k)).any (m.keyOf · == m.key e) =
        decide (m.key e ∈ m.keys es) := by
      rw [Bool.eq_iff_iff, List.any_eq_true, decide_eq_true_iff]
      constructor
      · rintro ⟨s, hs, hk⟩
        obtain ⟨k, hk', hentry⟩ := List.mem_filterMap.mp hs
        rwa [← beq_iff_eq.mp hk, keyOf_entry hentry]
      · intro hk
        obtain ⟨s, hs⟩ := hsome _ hk
        exact ⟨s, List.mem_filterMap.mpr ⟨_, hk, hs⟩, beq_iff_eq.mpr (keyOf_entry hs)⟩
    -- The events of other keys leave an entry alone.
    have hother : ∀ k ∈ m.keys es, k ≠ m.key e → m.entry (m.own (es ++ [e]) k) = m.entry (m.own es k) := by
      intro k _ hne
      rw [own_append, own_singleton_of_ne hne, List.append_nil]
    rw [put, hany, keys_append_singleton]
    by_cases hmem : m.key e ∈ m.keys es
    · rw [if_pos (decide_eq_true hmem), if_pos hmem, List.map_filterMap]
      refine List.filterMap_congr fun k hk => ?_
      obtain ⟨s, hs⟩ := hsome k hk
      rw [hs, Option.map_some, keyOf_entry hs]
      by_cases heq : k = m.key e
      · subst heq
        rw [if_pos rfl, own_append, own_singleton_self, entry_append_singleton (own_ne_nil hk) hs]
      · rw [if_neg heq, hother k hk heq, hs]
    · have hnew : m.entry (m.own (es ++ [e]) (m.key e)) = some (m.step (m.init e) e) := by
        rw [own_append, own_singleton_self, own_eq_nil hmem]
        rfl
      have hlast : [m.key e].filterMap (fun k => m.entry (m.own (es ++ [e]) k)) = [m.step (m.init e) e] :=
        List.filterMap_cons_some hnew
      rw [if_neg (by simpa using hmem), if_neg hmem, List.filterMap_append, hlast]
      congr 1
      exact (List.filterMap_congr fun k hk => hother k hk fun heq => hmem (heq ▸ hk)).symm

/-- Events whose ranks grow make entries whose first events' ranks grow. -/
theorem pairwise_keys {rank : α → Nat} (h : es.Pairwise fun a b => rank a < rank b) :
    (m.keys es).Pairwise fun k k' => ∀ a ∈ (m.own es k).head?, ∀ b ∈ (m.own es k').head?, rank a < rank b := by
  induction es using List.reverseRecOn with
  | nil => exact .nil
  | append_singleton es e ih =>
    rw [List.pairwise_append] at h
    obtain ⟨hes, -, hlast⟩ := h
    have hhead : ∀ k ∈ m.keys es, (m.own (es ++ [e]) k).head? = (m.own es k).head? := by
      intro k hk
      rw [own_append, List.head?_append_of_ne_nil _ (own_ne_nil hk)]
    have hold : (m.keys es).Pairwise fun k k' =>
        ∀ a ∈ (m.own (es ++ [e]) k).head?, ∀ b ∈ (m.own (es ++ [e]) k').head?, rank a < rank b := by
      refine (ih hes).imp_of_mem fun hk hk' hlt => ?_
      rw [hhead _ hk, hhead _ hk']
      exact hlt
    rw [keys_append_singleton]
    split_ifs with hmem
    · exact hold
    · refine List.pairwise_append.mpr ⟨hold, List.pairwise_singleton _ _, fun k hk k' hk' a ha b hb => ?_⟩
      obtain rfl := List.mem_singleton.mp hk'
      rw [hhead k hk] at ha
      rw [own_append, own_singleton_self, own_eq_nil hmem] at hb
      cases hb
      exact hlast a (List.mem_of_mem_filter (List.mem_of_mem_head? ha)) e (List.mem_singleton_self _)

end Keyed
end Keyed
end Go
