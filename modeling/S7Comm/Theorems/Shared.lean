import S7Comm.System.Shared
import S7Comm.Theorems.LinkBase
import S7Comm.Theorems.MemoryRuns

/-! One exchange on a shared server: the request is not served, or it is served and the client learns nothing of it,
    or it is served and its answer is read. In each case what the server has served is known. -/

namespace S7Comm
open Go

/-! ### Runs of the server -/

section Runs
variable (cfg : ServerConfig) (id : Nat) (srv : Server)

theorem server_run_append (a b : List Event) : srv.run cfg (a ++ b) = (srv.run cfg a).run cfg b := List.foldl_append

theorem ownSteps_append (a b : List Event) :
    ownSteps cfg id srv (a ++ b) = ownSteps cfg id srv a ++ ownSteps cfg id (srv.run cfg a) b := by
  induction a generalizing srv with
  | nil => rfl
  | cons e a ih =>
    have hrun : srv.run cfg (e :: a) = (srv.step cfg e).run cfg a := rfl
    rw [List.cons_append, ownSteps, ownSteps, ih, hrun]
    split <;> rfl

theorem ownSteps_foreign {events : List Event} (h : ∀ e ∈ events, e.isOf id = false) :
    ownSteps cfg id srv events = [] := by
  induction events generalizing srv with
  | nil => rfl
  | cons e events ih =>
    obtain ⟨he, hrest⟩ := List.forall_mem_cons.mp h
    rw [ownSteps, he]
    exact ih (srv.step cfg e) hrest

/-- No other session changes the PDU size of this one. -/
theorem pduSize_foreign {events : List Event} (h : ∀ e ∈ events, e.isOf id = false) :
    (srv.run cfg events).pduSize id = srv.pduSize id := by
  induction events generalizing srv with
  | nil => rfl
  | cons e events ih =>
    obtain ⟨he, hrest⟩ := List.forall_mem_cons.mp h
    refine (ih (srv.step cfg e) hrest).trans ?_
    cases e with
    | request session req =>
      have hne : id ≠ session := by
        rintro rfl
        simp [Event.isOf] at he
      exact Function.update_of_ne hne _ _
    | register => rfl
    | read => rfl
    | write => rfl

end Runs

/-! ### The link between two exchanges -/

section Link
variable {cfg : ServerConfig} {id : Nat} {w w' w'' : SharedLink id}

/-- On the way from `w` to `w'` the server has served events, and these are the steps of the client among them. -/
def SharedLink.Extends (cfg : ServerConfig) (w w' : SharedLink id) (steps : List (Memory × Memory)) : Prop :=
  ∃ events, w'.history = w.history ++ events ∧ w'.server = w.server.run cfg events ∧
    ownSteps cfg id w.server events = steps

theorem SharedLink.Extends.refl (w : SharedLink id) : w.Extends cfg w [] := ⟨[], by simp, rfl, rfl⟩

theorem SharedLink.Extends.trans {a b : List (Memory × Memory)} (h : w.Extends cfg w' a) (h' : w'.Extends cfg w'' b) :
    w.Extends cfg w'' (a ++ b) := by
  obtain ⟨events, hhist, hsrv, rfl⟩ := h
  obtain ⟨events', hhist', hsrv', rfl⟩ := h'
  refine ⟨events ++ events', ?_, ?_, ?_⟩
  · rw [hhist', hhist, List.append_assoc]
  · rw [hsrv', hsrv, server_run_append]
  · rw [ownSteps_append, hsrv]

theorem SharedLink.Extends.kept {steps : List (Memory × Memory)} (h : w.Extends cfg w' steps) :
    Kept w.server.mem.shape w'.server.mem.shape := by
  obtain ⟨events, -, hsrv, -⟩ := h
  rw [hsrv]
  exact run_kept cfg w.server events

/-- Between two exchanges the connection is held and nothing is due. -/
structure SharedLink.Ready (w : SharedLink id) : Prop where
  kept : w.kept = true
  due : w.due = none
  inbox : w.inbox = []

/-- No fault befalls the request of the turn. -/
structure Interlude.Calm (t : Interlude id) : Prop where
  ctx : t.ctx = none
  pause : t.pause = none
  delivery : t.delivery = .answered

/-- The next request finds a turn without a fault. -/
def SharedLink.Calm (w : SharedLink id) : Prop := ∃ t turns, w.turns = t :: turns ∧ t.Calm

/-- What an exchange comes to. A served request has found the memory `m`, which others have left there. -/
inductive SharedExchange (cfg : ServerConfig) (c : Client) (req : Bytes) (ref : UInt16) (w w' : SharedLink id) :
    Res (Bytes × Bytes) → Prop
  | unserved (e : GoError) (hfault : ¬(Fits c req ∧ w.Calm)) (h : w.Extends cfg w' []) :
      SharedExchange cfg c req ref w w' (.fail e)
  | unacknowledged (e : GoError) (hfault : ¬(Fits c req ∧ w.Calm)) {m : Memory} {out : Bytes} {s : Session}
      (hkept : Kept w.server.mem.shape m.shape)
      (hserve : handle cfg req ⟨m, w.server.pduSize id⟩ = (.ok (some out, true), s)) (h : w.Extends cfg w' [(m, s.mem)]) :
      SharedExchange cfg c req ref w w' (.fail e)
  | acknowledged {m : Memory} {out : Bytes} {s : Session} (hkept : Kept w.server.mem.shape m.shape)
      (hserve : handle cfg req ⟨m, w.server.pduSize id⟩ = (.ok (some out, true), s)) (h : w.Extends cfg w' [(m, s.mem)])
      (hready : w'.Ready) (hturns : w'.turns = w.turns.tail) (hpdu : w'.server.pduSize id = s.pduSize) :
      SharedExchange cfg c req ref w w' (responseSections out ref)

/-- A request in turn `t` after the others have been served. -/
theorem serve_shared (hw : w.Ready) (t : Interlude id) (req : Bytes) {out : Bytes} {s : Session}
    (hserve : handle cfg req ((w.server.run cfg t.others).session id) = (.ok (some out, true), s)) :
    ∃ v, (w.pass cfg t.others).serve cfg req = v ∧ w.Extends cfg v [((w.server.run cfg t.others).mem, s.mem)] ∧
      v.kept = true ∧ v.inbox = [.ok out] ∧ v.turns = w.turns ∧ v.server.pduSize id = s.pduSize := by
  have hserved : (w.pass cfg t.others).serve cfg req =
      { w with server := (w.server.run cfg t.others).step cfg (.request id req),
               history := w.history ++ t.others ++ [.request id req], kept := true, inbox := [.ok out] } := by
    simp only [SharedLink.serve, SharedLink.pass, hserve, hw.inbox]
    rfl
  refine ⟨_, hserved, ⟨t.others ++ [.request id req], by simp, ?_, ?_⟩, rfl, rfl, rfl, ?_⟩
  · rw [server_run_append]
    rfl
  · rw [ownSteps_append, ownSteps_foreign cfg id _ t.foreign, List.nil_append, ownSteps, ownSteps]
    simp only [Event.isOf, beq_self_eq_true, ↓reduceIte, Server.step, hserve]
  · simp only [Server.step, hserve, Function.update_self]

/-- An exchange, for a request that the server answers whatever the memory holds. -/
theorem sendReceive_shared (hw : w.Ready) (c : Client) {req : Bytes} (ref : UInt16)
    (hserve : ∀ m, ∃ out s, handle cfg req ⟨m, w.server.pduSize id⟩ = (.ok (some out, true), s)) :
    ∃ r w', sendReceive (sharedNet cfg id) req ref (c, w) = (r, (c, w')) ∧ SharedExchange cfg c req ref w w' r := by
  by_cases hfits : Fits c req
  swap
  · obtain ⟨e, -, he⟩ : ∃ e, _ ∧ sendReceive (sharedNet cfg id) req ref (c, w) = (.fail e, (c, w)) :=
      sendReceive_unsent hfits
    exact ⟨_, w, he, .unserved e (fun h => hfits h.1) (.refl w)⟩
  obtain ⟨hconn, hlen⟩ := hfits
  cases hturns : w.turns with
  | nil =>
    have hwrite : (sharedNet cfg id).writeTSDU req w = (some (.net false "broken pipe"), w) := by
      simp only [sharedNet, hturns]
    refine ⟨_, w, sendReceive_write_fail hconn hlen hwrite, .unserved _ ?_ (.refl w)⟩
    rintro ⟨-, t, turns, ht, -⟩
    rw [hturns] at ht
    cases ht
  | cons t turns =>
    obtain ⟨u, hu⟩ : ∃ u : SharedLink id, u = { w with turns } := ⟨_, rfl⟩
    have hready : u.Ready := by
      rw [hu]
      exact ⟨hw.kept, hw.due, hw.inbox⟩
    have hsame : ∀ {v steps}, u.Extends cfg v steps → w.Extends cfg v steps := by
      rw [hu]
      exact fun h => h
    have hnot : t.delivery ≠ .answered → ¬(Fits c req ∧ w.Calm) := by
      rintro hne ⟨-, t', turns', ht, hcalm⟩
      rw [hturns] at ht
      cases ht
      exact hne hcalm.delivery
    have hpdu : (w.server.run cfg t.others).pduSize id = w.server.pduSize id := pduSize_foreign cfg id _ t.foreign
    obtain ⟨m, hm⟩ : ∃ m, (w.server.run cfg t.others).mem = m := ⟨_, rfl⟩
    obtain ⟨out, s, hs⟩ := hserve m
    have hkept : Kept w.server.mem.shape m.shape := by
      rw [← hm]
      exact run_kept cfg w.server t.others
    have hhandle : handle cfg req ((u.server.run cfg t.others).session id) = (.ok (some out, true), s) := by
      rw [hu]
      simp only [Server.session, hpdu, hm]
      exact hs
    obtain ⟨v, hv, hext, hvkept, hvinbox, hvturns, hvpdu⟩ := serve_shared hready t req hhandle
    have hmem : (u.server.run cfg t.others).mem = m := by
      rw [hu]
      exact hm
    rw [hmem] at hext
    have hwrite : (sharedNet cfg id).writeTSDU req w = u.write cfg req t := by
      simp only [sharedNet, hturns, hu]
    have hheld : (u.pass cfg t.others).kept = true := hready.kept
    simp only [SharedLink.write, hheld, Bool.not_true, Bool.false_eq_true, ↓reduceIte, hv] at hwrite
    cases hdelivery : t.delivery with
    | answered =>
      rw [hdelivery] at hwrite
      have hread : (sharedNet cfg id).readTSDU { v with due := some none } =
          (.ok out, { v with due := none, inbox := [] }) := by
        simp only [sharedNet, hvinbox]
      refine ⟨responseSections out ref, _, sendReceive_read hconn hlen hwrite rfl hread,
        .acknowledged hkept hs (hsame hext) ⟨hvkept, rfl, rfl⟩ ?_ hvpdu⟩
      rw [hturns, List.tail_cons]
      exact hvturns.trans (by rw [hu])
    | lost err =>
      rw [hdelivery] at hwrite
      refine ⟨_, _, sendReceive_write_fail hconn hlen hwrite, .unserved err (hnot (by simp [hdelivery])) (hsame ?_)⟩
      exact ⟨t.others, rfl, rfl, ownSteps_foreign cfg id _ t.foreign⟩
    | unsure err =>
      rw [hdelivery] at hwrite
      exact ⟨_, v, sendReceive_write_fail hconn hlen hwrite,
        .unacknowledged err (hnot (by simp [hdelivery])) hkept hs (hsame hext)⟩
    | canceled err =>
      rw [hdelivery] at hwrite
      exact ⟨_, _, sendReceive_ctx_fail hconn hlen hwrite rfl,
        .unacknowledged err (hnot (by simp [hdelivery])) hkept hs (hsame hext)⟩
    | unanswered err =>
      rw [hdelivery] at hwrite
      exact ⟨_, _, sendReceive_read_fail hconn hlen hwrite rfl rfl,
        .unacknowledged err (hnot (by simp [hdelivery])) hkept hs (hsame hext)⟩

/-- The checks before a chunk: they pass, or the context has ended. -/
theorem chunkGate_shared (c : Client) (w : SharedLink id) (first : Bool) :
    chunkGate (sharedNet cfg id) first (c, w) = (.ok (), (c, w)) ∨
      (∃ e, chunkGate (sharedNet cfg id) first (c, w) = (.fail e, (c, w))) ∧ ¬(w.due = none ∧ w.Calm) := by
  have hctx : (sharedNet cfg id).ctxErr w = (w.due.getD (w.turns.head?.bind Interlude.ctx), w) := rfl
  have hwait : (sharedNet cfg id).wait w = (w.turns.head?.bind Interlude.pause, w) := rfl
  unfold chunkGate
  cases herr : w.due.getD (w.turns.head?.bind Interlude.ctx) with
  | some e =>
    rw [herr] at hctx
    refine .inr ⟨⟨e, Eff.bind_fail (netErr_fail hctx)⟩, ?_⟩
    rintro ⟨hdue, t, turns, ht, hcalm⟩
    simp [hdue, ht, hcalm.ctx] at herr
  | none =>
    rw [herr] at hctx
    rw [Eff.bind_ok (netErr_ok hctx), Eff.bind_ok (Eff.get_apply _)]
    dsimp only
    split
    · cases hpause : w.turns.head?.bind Interlude.pause with
      | some e =>
        rw [hpause] at hwait
        refine .inr ⟨⟨e, netErr_fail hwait⟩, ?_⟩
        rintro ⟨-, t, turns, ht, hcalm⟩
        simp [ht, hcalm.pause] at hpause
      | none =>
        rw [hpause] at hwait
        exact .inl (netErr_ok hwait)
    · exact .inl rfl

end Link
end S7Comm
