import S7Comm.Client.Client
import S7Comm.Wire.Setup

/-! The session of the client (`client/client.go`, `client/handshake.go`): connecting, with fixed or detected rack and
    slot, and closing. Dialing, the COTP handshake and the calls on a connection, which go-cotp provides, are a
    parameter; each of them may fail at any point. Connect, Close and the requests of one client run one after the
    other. -/

namespace S7Comm
open Go

/-- What the client meets of its contexts and of the network; `γ` names connections. `none` is the nil error. -/
structure Env (γ σ : Type) where
  ctxErr : σ → Option GoError × σ
  wait : σ → Option GoError × σ
  /-- The TCP connection and the COTP handshake with these TSAPs. -/
  dialCOTP : (localTSAP remoteTSAP : UInt16) → σ → Except GoError γ × σ
  writeTSDU : γ → Bytes → σ → Option GoError × σ
  readTSDU : γ → σ → Except GoError Bytes × σ
  close : γ → σ → Option GoError × σ

/-- `closeCOTP`; nil is no connection. -/
def Env.closeCOTP {γ σ : Type} (env : Env γ σ) : Option γ → σ → Option GoError × σ
  | none, w => (none, w)
  | some conn, w => env.close conn w

/-- The connection as the requests of the client see it. -/
def Env.net {γ σ : Type} (env : Env γ σ) (conn : Option γ) : Net σ where
  ctxErr := env.ctxErr
  wait := env.wait
  writeTSDU req w :=
    match conn with
    | none => (some (.sentinel .notConnected), w)
    | some conn => env.writeTSDU conn req w
  readTSDU w :=
    match conn with
    | none => (.error (.sentinel .notConnected), w)
    | some conn => env.readTSDU conn w

/-- A step of the world that may return an error. -/
def worldErr {σ : Type} (op : σ → Option GoError × σ) : Eff σ GoError Unit := fun w =>
  match op w with
  | (none, w') => (.ok (), w')
  | (some err, w') => (.fail err, w')

/-- A step of the world that returns a value or an error. -/
def worldVal {σ α : Type} (op : σ → Except GoError α × σ) : Eff σ GoError α := fun w =>
  match op w with
  | (.ok a, w') => (.ok a, w')
  | (.error err, w') => (.fail err, w')

section World
variable {σ α : Type} {w w' : σ} {err : GoError}

theorem worldErr_ok {op : σ → Option GoError × σ} (h : op w = (none, w')) : worldErr op w = (.ok (), w') := by
  rw [worldErr, h]

theorem worldErr_fail {op : σ → Option GoError × σ} (h : op w = (some err, w')) : worldErr op w = (.fail err, w') := by
  rw [worldErr, h]

theorem worldVal_ok {op : σ → Except GoError α × σ} {a : α} (h : op w = (.ok a, w')) : worldVal op w = (.ok a, w') := by
  rw [worldVal, h]

theorem worldVal_fail {op : σ → Except GoError α × σ} (h : op w = (.error err, w')) :
    worldVal op w = (.fail err, w') := by
  rw [worldVal, h]

end World

/-! ### Options -/

/-- The options of a client; the logger is left out. -/
structure Options where
  port : Int := 102
  rack : Int := 0
  slot : Int := 1
  localTSAP : UInt16 := 0
  remoteTSAP : UInt16 := 0
  useExplicit : Bool := false
  autoRackSlot : Bool := false
  bruteRackSlot : Bool := false
  /-- In nanoseconds. -/
  timeout : Int := 5000000000
  rateLimit : Nat := 0
  maxPDU : Int := 480
  maxAmqCalling : Int := 1
  maxAmqCalled : Int := 1
  deriving Repr, DecidableEq

/-- The digits of `n` below the point, `prec` of them, without the zeros at the end. -/
def fractionText (n prec : Nat) : String :=
  let digits := (List.range prec).map fun k => n / 10 ^ (prec - 1 - k) % 10
  let kept := (digits.reverse.dropWhile (· == 0)).reverse
  if kept.isEmpty then "" else "." ++ String.join (kept.map toString)

/-- A number of nanoseconds as `time.Duration` prints it. -/
def durationText (d : Int) : String :=
  let n := d.natAbs
  let scaled (prec : Nat) (unit : String) : String := toString (n / 10 ^ prec) ++ fractionText n prec ++ unit
  let text :=
    if n = 0 then "0s"
    else if n < 10 ^ 3 then scaled 0 "ns"
    else if n < 10 ^ 6 then scaled 3 "µs"
    else if n < 10 ^ 9 then scaled 6 "ms"
    else
      let secs := n / 10 ^ 9
      (if secs ≥ 3600 then s!"{secs / 3600}h" else "") ++ (if secs ≥ 60 then s!"{secs / 60 % 60}m" else "") ++
        toString (secs % 60) ++ fractionText n 9 ++ "s"
  if d < 0 then "-" ++ text else text

/-- The checks of `Connect` before it takes the client. -/
def Options.validate (opts : Options) : Res Unit :=
  if opts.port < 0 ∨ opts.port > 65535 then .fail (.validation s!"invalid port: {opts.port}")
  else if opts.timeout < 0 then .fail (.validation ("invalid timeout: " ++ durationText opts.timeout))
  else if opts.maxPDU < 1 ∨ opts.maxPDU > 65535 then .fail (.validation s!"invalid max PDU: {opts.maxPDU}")
  else if opts.autoRackSlot then .ok ()
  else if opts.rack < 0 ∨ opts.slot < 0 then
    .fail (.validation s!"invalid rack/slot: rack={opts.rack} slot={opts.slot}")
  else asValidation (validateRackSlot opts.rack opts.slot)

/-! ### Handshakes -/

/-- The part of `performS7Setup` after the read. -/
def setupAnswer (s7Data : Bytes) (pduRef : UInt16) : Res SetupCommResponse := do
  let (header, paramData) ← asProtocolFailure "parse S7 header" (parseS7Header s7Data)
  if header.pduRef ≠ pduRef then
    .fail (.pduRefMismatch pduRef header.pduRef)
  else if header.errorClass ≠ 0 ∨ header.errorCode ≠ 0 then
    .fail (.s7 (← newS7ErrorWithParam header.errorClass header.errorCode paramData))
  else
    match paramData with
    | fn :: _ =>
      if fn ≠ funcSetupComm then
        .fail (.wrap ("S7 setup response: expected function 0x" ++ hexByte funcSetupComm ++ ", got 0x" ++ hexByte fn ++
          ": " ++ Sentinel.protocolFailure.text) (.sentinel .protocolFailure))
      else asProtocolFailure "parse setup response" (parseSetupCommResponse paramData)
    | [] => asProtocolFailure "parse setup response" (parseSetupCommResponse paramData)

/-- What a handshake ends with: the connection and everything that was negotiated on it. -/
structure Handshake (γ : Type) where
  conn : γ
  rack : Int
  slot : Int
  localTSAP : UInt16
  remoteTSAP : UInt16
  setup : SetupCommResponse
  deriving Repr, DecidableEq

section Handshake
variable {γ σ : Type} (env : Env γ σ) (opts : Options)

def performS7Setup (conn : γ) (pduRef : UInt16) (maxAmqCalling maxAmqCalled maxPDU : Int) :
    Eff σ GoError SetupCommResponse := do
  worldErr env.ctxErr
  let req ← asValidation (encodeSetupCommRequest pduRef maxAmqCalling maxAmqCalled maxPDU)
  worldErr (env.writeTSDU conn req)
  let s7Data ← worldVal (env.readTSDU conn)
  setupAnswer s7Data pduRef

/-- The TSAPs of a connection: the explicit ones, or those of the rack and the slot. -/
def connectionTSAPs (rack slot : Int) : Res (UInt16 × UInt16) :=
  if opts.useExplicit then pure (opts.localTSAP, opts.remoteTSAP)
  else do
    let localTSAP ← asValidation (buildTSAP 1 0 0)
    let remoteTSAP ← asValidation (buildTSAP 3 rack slot)
    pure (localTSAP, remoteTSAP)

/-- The part of `connectOnce` that does not touch the client: dial and set up a new connection. -/
def handshake (rack slot : Int) : Eff σ GoError (Handshake γ) := do
  let (localTSAP, remoteTSAP) ← connectionTSAPs opts rack slot
  let conn ← worldVal (env.dialCOTP localTSAP remoteTSAP)
  match ← Eff.attempt (performS7Setup env conn 1 opts.maxAmqCalling opts.maxAmqCalled opts.maxPDU) with
  | .error err =>
    Eff.modify fun w => (env.closeCOTP (some conn) w).2
    Eff.fail (.wrap ("S7 setup: " ++ err.error) err)
  | .ok setup => pure ⟨conn, rack, slot, localTSAP, remoteTSAP, setup⟩

end Handshake

/-! ### The session -/

/-- The fields of the client that `Connect` and `Close` change, and the counter of its references. -/
structure ClientSession (γ : Type) where
  conn : Option γ := none
  rack : Int := 0
  slot : Int := 0
  localTSAP : UInt16 := 0
  remoteTSAP : UInt16 := 0
  pduSize : Nat := 0
  maxAmqCalling : Nat := 0
  maxAmqCalled : Nat := 0
  pduRef : UInt32 := 0
  deriving Repr, DecidableEq

/-- A snapshot of what was negotiated; host and port, which are options, are left out. -/
structure ConnectionInfo where
  localTSAP : UInt16 := 0
  remoteTSAP : UInt16 := 0
  rack : Int := 0
  slot : Int := 0
  pduSize : Nat := 0
  maxAmqCalling : Nat := 0
  maxAmqCalled : Nat := 0
  deriving Repr, DecidableEq

def ClientSession.connectionInfo {γ : Type} (s : ClientSession γ) : ConnectionInfo :=
  ⟨s.localTSAP, s.remoteTSAP, s.rack, s.slot, s.pduSize, s.maxAmqCalling, s.maxAmqCalled⟩

/-- A call that changes the session and the world. -/
abbrev SessionM (γ σ α : Type) : Type := Eff (ClientSession γ × σ) GoError α

section Session
variable {γ σ : Type} (env : Env γ σ) (opts : Options)

/-- The part of `connectOnce` after the handshake: the new connection replaces the old one, which is closed. -/
def swapIn (h : Handshake γ) : SessionM γ σ Unit := fun (s, w) =>
  (.ok (), ({ s with
    conn := some h.conn, rack := h.rack, slot := h.slot, localTSAP := h.localTSAP, remoteTSAP := h.remoteTSAP,
    pduSize := h.setup.pduSize, maxAmqCalling := h.setup.maxAmqCalling, maxAmqCalled := h.setup.maxAmqCalled },
    (env.closeCOTP s.conn w).2))

/-- Returns the handshake that it swapped in, where the code returns nil. -/
def connectOnce (rack slot : Int) : SessionM γ σ (Handshake γ) := do
  let h ← Eff.onSnd (handshake env opts rack slot)
  swapIn env h
  pure h

/-- The loops of `autoConnect`: the first rack and slot with which connecting succeeds. -/
def tryRackSlots (failure : String) : List (Int × Int) → SessionM γ σ (Handshake γ)
  | [] => Eff.fail (.text failure)
  | (rack, slot) :: rest => do
    Eff.onSnd (worldErr env.ctxErr)
    match ← Eff.attempt (connectOnce env opts rack slot) with
    | .ok h => pure h
    | .error _ => tryRackSlots failure rest

def bruteRackSlots : List (Int × Int) :=
  [0, 1, 2, 3].flatMap fun rack => [0, 1, 2, 3, 4, 5].map fun slot => (rack, slot)

def commonRackSlots : List (Int × Int) := [(0, 1), (0, 2), (0, 0), (1, 1), (0, 3)]

def autoConnect : SessionM γ σ (Handshake γ) :=
  if opts.bruteRackSlot then tryRackSlots env opts "auto rack/slot connect failed for rack 0-3 slot 0-5" bruteRackSlots
  else tryRackSlots env opts "auto rack/slot connect failed on common rack/slot pairs" commonRackSlots

def connect : SessionM γ σ (Handshake γ) := do
  let _ ← opts.validate
  if opts.autoRackSlot ∧ !opts.useExplicit then autoConnect env opts
  else connectOnce env opts opts.rack opts.slot

/-- `closeConnLocked`: a session that has a connection is cleared, whatever closing the connection returns. -/
def closeSession : SessionM γ σ Unit := fun (s, w) =>
  match s.conn with
  | none => (.ok (), (s, w))
  | some conn =>
    let cleared := { s with
      conn := none, rack := 0, slot := 0, localTSAP := 0, remoteTSAP := 0, pduSize := 0, maxAmqCalling := 0,
      maxAmqCalled := 0 }
    match env.closeCOTP (some conn) w with
    | (none, w') => (.ok (), (cleared, w'))
    | (some err, w') => (.fail err, (cleared, w'))

/-- The client as its requests see it. -/
def ClientSession.client (s : ClientSession γ) : Client := ⟨s.conn.isSome, s.pduSize, s.pduRef, opts.rateLimit⟩

/-- A call of a request, on the connection of the session. -/
def onClient {α : Type} (x : Net σ → ClientM σ α) : SessionM γ σ α := fun (s, w) =>
  match x (env.net s.conn) (s.client opts, w) with
  | (r, (c, w')) =>
    (r, ({ s with conn := if c.connected then s.conn else none, pduSize := c.pduSize, pduRef := c.pduRef }, w'))

end Session

/-! ### Runs -/

/-- The calls on a client. Every request of the client is made of calls of `nextPDURef` and of `sendReceive`. -/
inductive SessionOp where
  | connect
  | close
  | nextRef
  | exchange (req : Bytes) (expectedPDURef : UInt16)
  deriving Repr, DecidableEq

/-- A client after some calls, and the most recent successful handshake since it was last closed. -/
structure SessionHistory (γ σ : Type) where
  latest : Option (Handshake γ)
  session : ClientSession γ
  world : σ

/-- One call. -/
def SessionHistory.step {γ σ : Type} (env : Env γ σ) (opts : Options) (s : SessionHistory γ σ) :
    SessionOp → SessionHistory γ σ
  | .connect =>
    match S7Comm.connect env opts (s.session, s.world) with
    | (.ok h, (session, world)) => ⟨some h, session, world⟩
    | (_, (session, world)) => ⟨s.latest, session, world⟩
  | .close =>
    match closeSession env (s.session, s.world) with
    | (_, (session, world)) => ⟨none, session, world⟩
  | .nextRef =>
    match onClient env opts (fun _ => nextPDURef) (s.session, s.world) with
    | (_, (session, world)) => ⟨s.latest, session, world⟩
  | .exchange req ref =>
    match onClient env opts (fun net => sendReceive net req ref) (s.session, s.world) with
    | (_, (session, world)) => ⟨s.latest, session, world⟩

/-- A new client, and the calls on it one after the other. -/
def sessionRun {γ σ : Type} (env : Env γ σ) (opts : Options) (ops : List SessionOp) (w : σ) : SessionHistory γ σ :=
  ops.foldl (SessionHistory.step env opts) ⟨none, {}, w⟩

end S7Comm
