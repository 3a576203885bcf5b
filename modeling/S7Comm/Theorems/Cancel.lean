import S7Comm.Client.Cancel
import S7Comm.Theorems.AnswerBounds
import S7Comm.Theorems.Header

/-! Cancelled exchanges. The answers that an open connection holds between two exchanges are answers to requests before
    them, and there are none until a context ends between a completed write and its read. An exchange that finds one reads
    it in place of its own. -/

namespace S7Comm
open Go

/-- `errors.As` finds a `PDURefMismatchError` in what the call returned. -/
def Mismatched (r : Res (Bytes × Bytes)) : Prop := ∃ e, r = .fail e ∧ e.isPDURefMismatch = true

/-- The peer answers with the reference of the request and without a header error. -/
def Call.Echoed (x : Call) : Prop :=
  ∃ header rest, parseS7Header x.answer = .ok (header, rest) ∧ header.pduRef = x.ref ∧ header.errorClass = 0 ∧
    header.errorCode = 0

/-- The answer to the request itself is not a mismatch, whatever else is wrong with it. -/
theorem responseSections_not_mismatched {x : Call} (h : x.Echoed) : ¬Mismatched (responseSections x.answer x.ref) := by
  obtain ⟨header, rest, hparse, href, hclass, hcode⟩ := h
  rintro ⟨e, he, -⟩
  rw [responseSections_declared hparse (.inr href) hclass hcode] at he
  split at he
  · cases he
  · cases he

/-- The answer to another request is a mismatch. -/
theorem responseSections_mismatched {x y : Call} (h : y.Echoed) (hzero : x.ref ≠ 0) (hne : y.ref ≠ x.ref) :
    Mismatched (responseSections y.answer x.ref) := by
  obtain ⟨header, rest, hparse, href, -, -⟩ := h
  refine ⟨.join (.sentinel .protocolFailure) (.pduRefMismatch x.ref header.pduRef), ?_, rfl⟩
  unfold responseSections
  rw [hparse]
  dsimp only
  rw [if_pos ⟨hzero, by rwa [href]⟩]

theorem not_mismatched_fail {e : GoError} (h : e.isPDURefMismatch = false) : ¬Mismatched (.fail e) := by
  rintro ⟨e', heq, hmismatch⟩
  cases heq
  rw [h] at hmismatch
  cases hmismatch

/-- A request that does not go out leaves the connection as it is. -/
theorem lineCall_unsent {c : Client} (opened : Bool) (unread : List Bytes) {x : Call} (h : ¬Fits c x.req) :
    ∃ err, err.isPDURefMismatch = false ∧ lineCall c opened unread x = (.fail err, (c, ⟨opened, unread, x⟩)) :=
  sendReceive_unsent h

/-! ### The connection between two calls -/

/-- The connection after the calls `ys`: whether it is open, and the calls whose answers it holds. It is open until one
    of the calls has closed it, and then it holds an answer exactly if one of the contexts ended in the gap. -/
structure Backlog (c : Client) (ys : List Call) (opened : Bool) (q : List Call) : Prop where
  opened_iff : opened = true ↔ ∀ y ∈ ys, Fits c y.req → y.ctxEnd.closes = false
  mem : ∀ y ∈ q, y ∈ ys
  empty : opened = true → (q = [] ↔ ∀ y ∈ ys, Fits c y.req → y.ctxEnd.inGap = false)

namespace Backlog
variable {c : Client} {ys q : List Call} {opened : Bool} {x : Call}

theorem start (c : Client) : Backlog c [] true [] := ⟨by simp, by simp, by simp⟩

theorem unsent (h : Backlog c ys opened q) (hx : ¬Fits c x.req) : Backlog c (ys ++ [x]) opened q where
  opened_iff := by simp [h.opened_iff, or_imp, forall_and, hx]
  mem y hy := List.mem_append_left _ (h.mem y hy)
  empty hopen := by simp [h.empty hopen, or_imp, forall_and, hx]

theorem closed (h : Backlog c ys false q) : Backlog c (ys ++ [x]) false q where
  opened_iff := by
    refine iff_of_false Bool.false_ne_true fun hall => ?_
    exact Bool.false_ne_true (h.opened_iff.mpr fun y hy => hall y (List.mem_append_left _ hy))
  mem y hy := List.mem_append_left _ (h.mem y hy)
  empty := nofun

theorem sent (h : Backlog c ys true q) (hx : Fits c x.req) {q' : List Call} (hmem : ∀ y ∈ q', y ∈ q ∨ y = x)
    (hq : x.ctxEnd.closes = false → (q' = [] ↔ q = [] ∧ x.ctxEnd.inGap = false)) :
    Backlog c (ys ++ [x]) (!x.ctxEnd.closes) q' where
  opened_iff := by
    have hbefore := h.opened_iff.mp rfl
    simp only [Bool.not_eq_true', List.forall_mem_append, List.forall_mem_singleton]
    exact ⟨fun hx' => ⟨hbefore, fun _ => hx'⟩, fun hall => hall.2 hx⟩
  mem y hy := by
    rcases hmem y hy with hy | rfl
    · exact List.mem_append_left _ (h.mem y hy)
    · exact List.mem_append_right _ List.mem_cons_self
  empty hopen := by
    rw [hq (by simpa using hopen), h.empty rfl]
    simp [or_imp, forall_and, hx]

/-- What a call leaves: a request that was written adds its answer at the end, and a read takes the first one. -/
theorem after (h : Backlog c ys opened q) (x : Call) :
    ∃ opened' q', (lineCall c opened (q.map Call.answer) x).2 = (c, ⟨opened', q'.map Call.answer, x⟩) ∧
      Backlog c (ys ++ [x]) opened' q' := by
  by_cases hx : Fits c x.req
  swap
  · obtain ⟨err, -, hunsent⟩ := lineCall_unsent opened (q.map Call.answer) hx
    exact ⟨opened, q, by rw [hunsent], h.unsent hx⟩
  rw [lineCall, sendReceive_sent hx.1 hx.2]
  cases opened with
  | false => exact ⟨false, q, rfl, h.closed⟩
  | true =>
    have hlast : ∀ y ∈ q ++ [x], y ∈ q ∨ y = x := by simp
    obtain ⟨req, ref, answer, ctxEnd, ctxErr⟩ := x
    cases ctxEnd with
    | never =>
      cases q with
      | nil => exact ⟨true, [], rfl, h.sent hx (by simp) (by simp [CtxEnd.inGap])⟩
      | cons z q =>
        refine ⟨true, q ++ [⟨req, ref, answer, .never, ctxErr⟩], ?_, h.sent hx ?_ (by simp)⟩
        · rw [List.map_append]
          rfl
        · exact fun y hy => hlast y (List.mem_cons_of_mem z hy)
    | beforeWrite closes => exact ⟨!closes, q, rfl, h.sent hx (fun _ => .inl) (by simp [CtxEnd.inGap])⟩
    | insideWrite => exact ⟨false, q, rfl, h.sent hx (fun _ => .inl) nofun⟩
    | beforeCheck | beforeRead =>
      refine ⟨true, q ++ [_], ?_, h.sent hx hlast (by simp [CtxEnd.inGap])⟩
      rw [List.map_append]
      rfl
    | insideRead =>
      refine ⟨false, q ++ [_], ?_, h.sent hx hlast nofun⟩
      rw [List.map_append]
      rfl

/-- In a run, every call finds what the calls before it have left. -/
theorem lineCalls (h : Backlog c ys opened q) {xs : List Call} {i : Nat} (hx : xs[i]? = some x) :
    ∃ opened' q', Backlog c (ys ++ xs.take i) opened' q' ∧
      (lineCalls c opened (q.map Call.answer) xs)[i]? = some (lineCall c opened' (q'.map Call.answer) x).1 := by
  induction xs generalizing ys opened q i with
  | nil => cases hx
  | cons y xs ih =>
    cases i with
    | zero =>
      cases hx
      refine ⟨opened, q, by rwa [List.take_zero, List.append_nil], ?_⟩
      rfl
    | succ i =>
      obtain ⟨opened₁, q₁, hafter, hnext⟩ := h.after y
      obtain ⟨opened', q', hlog, hresult⟩ := ih hnext hx
      refine ⟨opened', q', ?_, ?_⟩
      · rwa [List.append_assoc] at hlog
      · rw [← hresult]
        simp only [S7Comm.lineCalls, hafter, List.getElem?_cons_succ]

end Backlog

/-! ### Live calls -/

section Live
variable {c : Client} {opened : Bool} {q : List Call} {x y : Call}

/-- Behind an unread answer a call reads that one. -/
theorem lineCall_behind (hx : Fits c x.req) (hlive : x.ctxEnd = .never) :
    (lineCall c true ((y :: q).map Call.answer) x).1 = responseSections y.answer x.ref := by
  rw [lineCall, sendReceive_sent hx.1 hx.2]
  obtain ⟨req, ref, answer, ctxEnd, ctxErr⟩ := x
  cases hlive
  rfl

/-- Otherwise a call reads the answer to its own request, or none at all. -/
theorem lineCall_not_mismatched (hecho : x.Echoed) (hlive : x.ctxEnd = .never)
    (hq : Fits c x.req → opened = true → q = []) : ¬Mismatched (lineCall c opened (q.map Call.answer) x).1 := by
  by_cases hx : Fits c x.req
  swap
  · obtain ⟨err, hother, hunsent⟩ := lineCall_unsent opened (q.map Call.answer) hx
    rw [hunsent]
    exact not_mismatched_fail hother
  rw [lineCall, sendReceive_sent hx.1 hx.2]
  cases opened with
  | false => exact not_mismatched_fail rfl
  | true =>
    obtain rfl := hq hx rfl
    obtain ⟨req, ref, answer, ctxEnd, ctxErr⟩ := x
    cases hlive
    exact responseSections_not_mismatched hecho

end Live

/-! ### Runs -/

theorem ref_ne_of_nodup {xs : List Call} {i : Nat} {x y : Call} (h : (xs.map Call.ref).Nodup) (hx : xs[i]? = some x)
    (hy : y ∈ xs.take i) : y.ref ≠ x.ref := by
  rw [← List.take_append_drop i xs, List.map_append] at h
  have hx' : x ∈ xs.drop i := List.mem_of_getElem? (i := 0) (by rwa [List.getElem?_drop])
  intro href
  exact List.disjoint_of_nodup_append h (List.mem_map_of_mem hy) (href ▸ List.mem_map_of_mem hx')

/-- No exchange whose own context does not end fails with a mismatch. -/
def KeepsStep (c : Client) (xs : List Call) : Prop :=
  ∀ (i : Nat) x result, xs[i]? = some x → x.ctxEnd = .never → (lineCalls c true [] xs)[i]? = some result →
    ¬Mismatched result

/-- No request whose context does not end goes out on the open connection behind one whose context ended between its
    completed write and the read. -/
def NoneBehind (c : Client) (xs : List Call) : Prop :=
  ∀ (i : Nat) x, xs[i]? = some x → x.ctxEnd = .never → Fits c x.req →
    (∀ y ∈ xs.take i, Fits c y.req → y.ctxEnd.closes = false) →
    ∀ y ∈ xs.take i, Fits c y.req → y.ctxEnd.inGap = false

/-- Over any run of exchanges on one connection: if none with a live context follows one that ended in the gap while
    the connection is open, no exchange with a live context fails with a mismatch of references; and with references as
    a client gives them out, none 0 and no two the same, only then. -/
theorem cancel_keeps_stream_in_step (c : Client) {xs : List Call} (hecho : ∀ x ∈ xs, x.Echoed) :
    (NoneBehind c xs → KeepsStep c xs) ∧
      ((∀ x ∈ xs, x.ref ≠ 0) → (xs.map Call.ref).Nodup → KeepsStep c xs → NoneBehind c xs) := by
  constructor
  · intro hnone i x result hx hlive hresult
    obtain ⟨opened, q, hlog, hcall⟩ := (Backlog.start c).lineCalls hx
    cases hcall.symm.trans hresult
    refine lineCall_not_mismatched (hecho x (List.mem_of_getElem? hx)) hlive fun hfit hopen => ?_
    exact (hlog.empty hopen).mpr (hnone i x hx hlive hfit (hlog.opened_iff.mp hopen))
  · intro hzero hnodup hkeeps i x hx hlive hfit hopen
    obtain ⟨opened, q, hlog, hcall⟩ := (Backlog.start c).lineCalls hx
    obtain rfl := hlog.opened_iff.mpr hopen
    refine (hlog.empty rfl).mp ?_
    cases q with
    | nil => rfl
    | cons y q =>
      -- The first unread answer is to another request, so its reference is another one.
      have hy : y ∈ xs.take i := hlog.mem y List.mem_cons_self
      rw [lineCall_behind hfit hlive] at hcall
      have hmismatch := responseSections_mismatched (hecho y (List.mem_of_mem_take hy))
        (hzero x (List.mem_of_getElem? hx)) (ref_ne_of_nodup hnodup hx hy)
      exact absurd hmismatch (hkeeps i x _ hx hlive hcall)

/-- The call with this reference. -/
def readCall (ref : UInt16) (ctxEnd : CtxEnd) : Call where
  req := message rosctrJob ref [funcReadVar, 0] []
  ref := ref
  answer := ackData ref 0 0 [funcReadVar, 0] []
  ctxEnd := ctxEnd

theorem echoed_readCall (ref : UInt16) (ctxEnd : CtxEnd) : (readCall ref ctxEnd).Echoed := by
  rw [Call.Echoed, readCall, parseS7Header_ackData (by simp) (by simp)]
  exact ⟨_, _, rfl, rfl, rfl, rfl⟩

/-- A context ends before the write, one in the gap, and one inside the next read, which closes the connection. -/
def endedCalls : List Call :=
  [readCall 1 (.beforeWrite false), readCall 2 .never, readCall 3 .beforeCheck, readCall 4 .insideRead, readCall 5 .never]

theorem cancel_keeps_stream_in_step_ended :
    KeepsStep ⟨true, 240, 0, 0⟩ endedCalls ∧
      (lineCalls ⟨true, 240, 0, 0⟩ true [] endedCalls)[1]? = some (.ok ([funcReadVar, 0], [])) ∧
      (lineCalls ⟨true, 240, 0, 0⟩ true [] endedCalls)[4]? = some (.fail (.net false "use of closed connection")) := by
  have hecho : ∀ x ∈ endedCalls, x.Echoed := by
    simp [endedCalls, echoed_readCall]
  have hnone : NoneBehind ⟨true, 240, 0, 0⟩ endedCalls := by
    intro i x hx hlive hfit hopen
    obtain ⟨hlt, -⟩ := List.getElem?_eq_some_iff.mp hx
    have hi : i < 5 := hlt
    interval_cases i
    · cases hx
      cases hlive
    · exact List.forall_mem_singleton.mpr fun _ => rfl
    · cases hx
      cases hlive
    · cases hx
      cases hlive
    · cases hopen (readCall 4 .insideRead) (by simp [endedCalls]) ⟨rfl, by decide⟩
  exact ⟨(cancel_keeps_stream_in_step _ hecho).1 hnone, by decide +kernel, by decide +kernel⟩

/-- The first context ends between the write and the read. -/
def staleCalls : List Call := [readCall 1 .beforeCheck, readCall 2 .never]

/-- After a context that ends behind a completed write, the next exchange reads the answer to the first one. -/
theorem cancel_after_write_leaves_answer :
    (∀ x ∈ staleCalls, x.Echoed) ∧ (staleCalls[1]?).map Call.ctxEnd = some .never ∧
      (lineCalls ⟨true, 240, 0, 0⟩ true [] staleCalls)[1]? =
        some (.fail (.join (.sentinel .protocolFailure) (.pduRefMismatch 2 1))) := by
  refine ⟨?_, rfl, by decide +kernel⟩
  simp [staleCalls, echoed_readCall]

end S7Comm
