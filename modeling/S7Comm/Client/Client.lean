import S7Comm.Wire.Vars

/-! The client's exchange of one request for one answer (`client/client.go`). The connection, which
    go-cotp provides, and the context of the call are a parameter `Net`; requests of one client run one
    after the other. -/

namespace S7Comm
open Go

/-- What a call sees of its context and of its connection. Each operation reads and changes the state `σ`
    of the world behind it; `none` is the nil error. -/
structure Net (σ : Type) where
  /-- `ctx.Err()`. -/
  ctxErr : σ → Option GoError × σ
  /-- Waiting for the rate limit: the context ends first, or the time passes. -/
  wait : σ → Option GoError × σ
  writeTSDU : Bytes → σ → Option GoError × σ
  readTSDU : σ → Except GoError Bytes × σ

/-- The fields of the client that its requests use. -/
structure Client where
  connected : Bool
  pduSize : Nat
  pduRef : UInt32
  /-- Pause between the chunks of one call, in nanoseconds. -/
  rateLimit : Nat
  deriving Repr, DecidableEq

/-- A call of the client: it changes the client and the world behind the connection. -/
abbrev ClientM (σ : Type) (α : Type) : Type := Eff (Client × σ) GoError α

/-- A step of the world that may return an error. -/
def netErr {σ : Type} (op : σ → Option GoError × σ) : ClientM σ Unit := fun (c, w) =>
  match op w with
  | (none, w') => (.ok (), (c, w'))
  | (some err, w') => (.fail err, (c, w'))

/-- A step of the world that returns a value or an error. -/
def netVal {σ α : Type} (op : σ → Except GoError α × σ) : ClientM σ α := fun (c, w) =>
  match op w with
  | (.ok a, w') => (.ok a, (c, w'))
  | (.error err, w') => (.fail err, (c, w'))

/-! ### PDU references -/

theorem next_ref_measure {pduRef : UInt32} (h : ¬(pduRef + 1) &&& 0xFFFF ≠ 0) :
    (if (pduRef + 1 + 1) &&& 0xFFFF = 0 then 1 else 0) < (if (pduRef + 1) &&& 0xFFFF = 0 then 1 else 0) := by
  rw [not_not] at h
  have hne : (pduRef + 1 + 1) &&& 0xFFFF ≠ 0 := by
    intro h'
    have e := congrArg UInt32.toNat h
    have e' := congrArg UInt32.toNat h'
    have hand : ∀ n : Nat, n &&& 65535 = n % 65536 := fun n => Nat.and_two_pow_sub_one_eq_mod n 16
    simp [hand] at e e'
    omega
  rw [if_pos h, if_neg hne]
  exact Nat.zero_lt_one

/-- The reference and the counter after the call: the counter is incremented until its low 16 bits are
    not zero. -/
def nextPDURefFrom (pduRef : UInt32) : UInt16 × UInt32 :=
  let ref := (pduRef + 1) &&& 0xFFFF
  if _h : ref ≠ 0 then (ref.toUInt16, pduRef + 1) else nextPDURefFrom (pduRef + 1)
termination_by if (pduRef + 1) &&& 0xFFFF = 0 then 1 else 0
decreasing_by exact next_ref_measure _h

def nextPDURef {σ : Type} : ClientM σ UInt16 := fun (c, w) =>
  match nextPDURefFrom c.pduRef with
  | (ref, pduRef) => (.ok ref, ({ c with pduRef }, w))

/-! ### Exchanges -/

/-- The error of a call as a `ValidationError`. -/
def asValidation {α : Type} : Res α → Res α
  | .fail err => .fail (.validation err.error)
  | r => r

@[simp] theorem asValidation_ok {α : Type} (a : α) : asValidation (.ok a) = .ok a := rfl

/-- The error of a parser, as a failure of the protocol at the step that `what` names. -/
def asProtocolFailure {α : Type} (what : String) : Res α → Res α
  | .fail err =>
    let cause := GoError.join err (.sentinel .protocolFailure)
    .fail (.wrap (what ++ ": " ++ cause.error) cause)
  | r => r

/-- The parameter section of an answer with a header error, as far as the answer has it. -/
def errorParam (header : S7Header) (rest : Bytes) : Res Bytes :=
  let pl := header.paramLength.toNat
  if pl > 0 ∧ rest.length ≥ pl then sliceOf rest 0 pl else pure []

/-- The part of `sendReceive` after the read: the parameter and the data section of an answer. -/
def responseSections (s7Data : Bytes) (expectedPDURef : UInt16) : Res (Bytes × Bytes) := do
  match parseS7Header s7Data with
  | .panic => .panic
  | .fail err =>
    let cause := GoError.join err (.sentinel .protocolFailure)
    .fail (.wrap ("parse S7 header: " ++ cause.error) cause)
  | .ok (header, rest) =>
    if expectedPDURef ≠ 0 ∧ header.pduRef ≠ expectedPDURef then
      .fail (.join (.sentinel .protocolFailure) (.pduRefMismatch expectedPDURef header.pduRef))
    else if header.errorClass ≠ 0 ∨ header.errorCode ≠ 0 then
      let param ← errorParam header rest
      .fail (.s7 (← newS7ErrorWithParam header.errorClass header.errorCode param))
    else
      let need := header.paramLength.toNat + header.dataLength.toNat
      if rest.length < need then
        .fail (.wrap (s!"short S7 payload: need {need} bytes, got {rest.length}: " ++ Sentinel.protocolFailure.text)
          (.sentinel .protocolFailure))
      else
        let paramData ← sliceOf rest 0 header.paramLength.toNat
        -- The end of the data section is a sum of two 16-bit fields, taken modulo 2^16.
        let dataData ← sliceOf rest header.paramLength.toNat (header.paramLength + header.dataLength).toNat
        pure (paramData, dataData)

def sendReceive {σ : Type} (net : Net σ) (req : Bytes) (expectedPDURef : UInt16) : ClientM σ (Bytes × Bytes) := do
  let (c, _) ← Eff.get
  if !c.connected then
    Eff.fail (.sentinel .notConnected)
  else if c.pduSize > 0 ∧ req.length > c.pduSize then
    Eff.fail (.wrap (s!"request size {req.length} exceeds negotiated PDU size {c.pduSize}: " ++
      Sentinel.requestExceedsPDU.text) (.sentinel .requestExceedsPDU))
  else
    netErr (net.writeTSDU req)
    netErr net.ctxErr
    let s7Data ← netVal net.readTSDU
    responseSections s7Data expectedPDURef

end S7Comm
