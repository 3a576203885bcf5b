import S7Comm.Lib.Series

/-! Loops over the records of a byte string: `for off < len(b)`, each round reads one record at `off` and goes on after
    it. What a record means may depend on the records before it, so that each one leads from a state to a state. A loop
    of which one round is known to read exactly the records at its offset reads exactly the strings of such records. -/

namespace Go

section Records
variable {σ β ε : Type}

/-- The bytes are records one after the other, which lead from one state to another. -/
inductive Records (Rec : σ → List β → σ → Prop) : σ → List β → σ → Prop where
  | nil (s : σ) : Records Rec s [] s
  | cons {s s₁ s₂ : σ} {e e' : List β} : Rec s e s₁ → Records Rec s₁ e' s₂ → Records Rec s (e ++ e') s₂

/-- The loop over `b`, from an offset and a state on, reads records; where none stands it fails with `err`. -/
structure Reads (Rec : σ → List β → σ → Prop) (err : ε) (b : List β) (loop : Nat → σ → Outcome ε σ) : Prop where
  /-- At the end of the bytes the loop ends. -/
  ends : ∀ s, loop b.length s = .ok s
  /-- A record that stands at the offset is read. -/
  complete : ∀ {off s e s₁}, Rec s e s₁ → StandsAt b off e → loop off s = loop (off + e.length) s₁
  /-- Before the end a record stands at the offset, or the loop fails. -/
  sound : ∀ {off} (s), off < b.length → loop off s = .fail err ∨ ∃ e s₁, Rec s e s₁ ∧ 0 < e.length ∧ StandsAt b off e

variable {Rec : σ → List β → σ → Prop} {err : ε} {b : List β} {loop : Nat → σ → Outcome ε σ}

theorem Reads.of_records (h : Reads Rec err b loop) {off : Nat} {s s' : σ} {e : List β} (hrec : Records Rec s e s')
    (hat : StandsAt b off e) : loop off s = loop (off + e.length) s' := by
  induction hrec generalizing off with
  | nil s => rfl
  | cons hfirst _ ih =>
    rw [standsAt_append] at hat
    rw [h.complete hfirst hat.1, ih hat.2, List.length_append, Nat.add_assoc]

/-- From an offset on the loop reads the rest of the bytes, or it fails. By induction on what is left. -/
theorem Reads.cases (h : Reads Rec err b loop) (s : σ) {off : Nat} (hoff : off ≤ b.length) :
    loop off s = .fail err ∨ ∃ s', loop off s = .ok s' ∧ Records Rec s (b.drop off) s' := by
  induction hn : b.length - off using Nat.strongRecOn generalizing off s with
  | ind n ih =>
    rcases Nat.lt_or_eq_of_le hoff with hlt | rfl
    · rcases h.sound s hlt with hfail | ⟨e, s₁, hrec, hpos, hat⟩
      · exact .inl hfail
      · have hle := hat.le
        rw [h.complete hrec hat]
        refine (ih (b.length - (off + e.length)) (by omega) s₁ hle rfl).imp_right ?_
        rintro ⟨s', hok, hrest⟩
        refine ⟨s', hok, ?_⟩
        have hdrop : b.drop off = e ++ b.drop (off + e.length) := by
          rw [← List.drop_drop]
          conv => lhs; rw [← List.take_append_drop e.length (b.drop off), hat.drop]
        rw [hdrop]
        exact .cons hrec hrest
    · exact .inr ⟨s, h.ends s, by rw [List.drop_length]; exact .nil s⟩

/-- The loop succeeds exactly on strings of records, with the state they lead to. -/
theorem Reads.eq_ok_iff (h : Reads Rec err b loop) {s s' : σ} {off : Nat} (hoff : off ≤ b.length) :
    loop off s = .ok s' ↔ Records Rec s (b.drop off) s' := by
  constructor
  · intro hok
    rcases h.cases s hoff with hfail | ⟨s₁, hok', hrec⟩
    · rw [hfail] at hok
      cases hok
    · rw [hok] at hok'
      cases hok'
      exact hrec
  · intro hrec
    rw [h.of_records hrec (standsAt_drop hoff), List.length_drop, Nat.add_sub_cancel' hoff]
    exact h.ends s'

end Records
end Go
