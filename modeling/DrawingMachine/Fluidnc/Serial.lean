import DrawingMachine.Base.Interaction
import DrawingMachine.Fluidnc.Lines

/-!
# The serial adapter

The operations of a FluidNC session over a serial line. The transport and the clock are a
device of which nothing is known: any access may answer anything, and may raise an
exception. Those that the adapter guards make a failure, and the others escape from it.

A run makes an event for each payload it writes, a command or one of the queries for the
status, the parser state and the offsets; for each line it reads; when it finds that no
more bytes are waiting; for each update that it reports to a callback; and when an exception
escapes.
-/

namespace DrawingMachine

/-- The queries for the status, the parser state and the offsets. -/
inductive ControllerQuery where
  | status | parser | offsets
  deriving DecidableEq, Repr

/-- What the progress callback does with an update: it returns, or raises an error of the
program, or another exception. -/
inductive Serial.CallbackResult where
  | returned | drawingMachineError | otherException
  deriving DecidableEq, Repr

/-- An update of the progress of a stream. -/
structure Serial.StreamProgressUpdate where
  machineSessionEpoch : String
  acknowledgedCommands : Nat
  sourceLine : Nat
  commandDigest : String
  deriving DecidableEq, Repr

/-- What happens between the adapter and the transport, and between the adapter and the
callback of a stream. -/
inductive SerialEvent where
  | command (payload : List UInt8)
  | query (q : ControllerQuery)
  | line (text : Text)
  | settled
  | progress (update : Serial.StreamProgressUpdate) (result : Serial.CallbackResult)
  | raised
  deriving DecidableEq, Repr

/-- A transport with a clock. An access to it answers `none` when it raises an exception, and
`some none` when it answers with a value that is not of the type it should be. -/
structure Transport (σ : Type) where
  monotonic : σ → ℚ × σ
  isOpen : σ → Option Bool × σ
  setWriteTimeout : ℚ → σ → Option Unit × σ
  write : List UInt8 → σ → Option (Option Int) × σ
  setTimeout : ℚ → σ → Option Unit × σ
  readUntil : σ → Option (Option (List UInt8)) × σ
  inWaiting : σ → Option (Option Int) × σ

/-- The configuration of the adapter. -/
structure SerialConfig where
  lineEnding : Text
  settleTimeoutSeconds : ℚ
  readTimeoutSeconds : ℚ
  commandTimeoutSeconds : ℚ
  homeTimeoutSeconds : ℚ
  streamIdleTimeoutSeconds : ℚ
  expectedHomedMpos : Vector3
  positionToleranceMm : ℚ
  gcode : MachineBuildProfile

/-- A run of the adapter. -/
abbrev Adapter (σ : Type) := Interaction σ SerialEvent

/-- An open session. The lines of its startup are accepted ones and within the limits, and a
startup that failed did not fail with a reset. -/
structure SerialSession (p : Platform) where
  config : SerialConfig
  epoch : String
  closed : Bool
  startup : List Text
  startupFailure : Option (FluidNCFailure p.ucd)
  epoch_canonical : CanonicalUuid epoch
  startup_wellFormed : ∀ line ∈ startup, WellFormedLine p.ucd line
  startup_fits : Serial.boundedEvidence startup = startup
  startupFailure_isReset : FluidNCFailure.isReset startupFailure = false

namespace Serial

open Interaction

variable (p : Platform) {σ : Type} (t : Transport σ) (session : SerialSession p)

/-! ### The clock -/

/-- The reading of the clock. -/
def now : Adapter σ ℚ := perform t.monotonic

/-- The deadline after the given time. -/
def deadlineAfter (seconds : ℚ) : Adapter σ Reading := do
  return p.float.add (← now t) seconds

/-- Whether a deadline has passed; one that is not finite never does. -/
def passed (deadline : Reading) (time : ℚ) : Bool := deadline.any fun d => d ≤ time

/-- The time a single access may take. -/
def remainingTimeout (limit : ℚ) (deadline : Reading) (time : ℚ) : ℚ :=
  match deadline.bind fun d => p.float.sub d time with
  | some remaining => min limit remaining
  | none => limit

/-! ### Writing -/

/-- The bytes of a text of ASCII characters. -/
def asciiBytes (text : Text) : Option (List UInt8) :=
  if ∀ c ∈ text, c.toNat < 128 then some (Text.encode text) else none

/-- What follows the write of a payload. -/
def checkWritten (payload : List UInt8) (deadline : Reading) (sideEffect : Bool)
    (written : Option (Option Int)) : Adapter σ (Option (FluidNCFailure p.ucd)) :=
  match written with
  | none => return some (SerialFault.writeFailed.failure p sideEffect)
  | some written => do
      let time ← now t
      if passed deadline time then return some (SerialFault.deadline.failure p sideEffect)
      else if written ≠ some (payload.length : Int) then
        return some (SerialFault.shortWrite.failure p true)
      else return none

/-- Write a payload to a transport that is open, before the deadline. -/
def writePayload (event : List UInt8 → SerialEvent) (text : Text) (deadline : Reading)
    (sideEffect : Bool) : Adapter σ (Option (FluidNCFailure p.ucd)) := do
  let time ← now t
  if passed deadline time then return some (SerialFault.deadline.failure p sideEffect)
  else
    let _ ← attempt .raised (t.setWriteTimeout
      (remainingTimeout p session.config.commandTimeoutSeconds deadline time))
    match asciiBytes text with
    | none => escape .raised
    | some payload =>
        record (event payload)
        let written ← perform (t.write payload)
        checkWritten p t payload deadline sideEffect written

/-- Write a command or a query. -/
def write (event : List UInt8 → SerialEvent) (text : Text) (deadline : Reading)
    (sideEffect : Bool) : Adapter σ (Option (FluidNCFailure p.ucd)) := do
  if session.closed then return some (SerialFault.sessionClosed.failure p sideEffect)
  else
    let isOpen ← attempt .raised t.isOpen
    if isOpen then writePayload p t session event text deadline sideEffect
    else return some (SerialFault.sessionClosed.failure p sideEffect)

/-! ### Reading -/

/-- What the bytes of a read are taken for. -/
def checkRaw (deadline : Reading) (sideEffect : Bool) (raw : Option (List UInt8)) :
    Adapter σ (Except (FluidNCFailure p.ucd) (List UInt8)) := do
  let time ← now t
  if passed deadline time then return .error (SerialFault.deadline.failure p sideEffect)
  else
    match raw with
    | none => return .error (SerialFault.readType.failure p sideEffect)
    | some [] =>
        let isOpen ← attempt .raised t.isOpen
        if isOpen then return .error (SerialFault.readTimeout.failure p sideEffect)
        else return .error (SerialFault.eof.failure p sideEffect)
    | some bytes => return .ok bytes

/-- Read the bytes up to the next line feed, before the deadline. -/
def readRaw (deadline : Reading) (sideEffect : Bool) :
    Adapter σ (Except (FluidNCFailure p.ucd) (List UInt8)) := do
  let time ← now t
  if passed deadline time then return .error (SerialFault.deadline.failure p sideEffect)
  else
    let _ ← attempt .raised (t.setTimeout
      (remainingTimeout p session.config.readTimeoutSeconds deadline time))
    match ← perform t.readUntil with
    | none => return .error (SerialFault.readFailed.failure p sideEffect)
    | some raw => checkRaw p t deadline sideEffect raw

/-- The line that the bytes of a read make, after the given lines and number of bytes; or the
lines with the failure they end in. -/
def acceptRaw (bounds : SerialFault) (phase : SessionObservationPhase) (sideEffect : Bool)
    (lines : List Text) (total : Nat) (raw : List UInt8) :
    Adapter σ (Except (List Text × FluidNCFailure p.ucd) (Text × Nat)) :=
  if 256 ≤ lines.length ∨ 64 * 1024 < total + raw.length then
    return .error (lines, bounds.failure p sideEffect)
  else
    match decodeLine p raw sideEffect with
    | .error f => return .error (lines, f)
    | .ok line => do
        record (.line line)
        match lineFailure p line phase sideEffect with
        | some f => return .error (lines ++ [line], f)
        | none => return .ok (line, total + raw.length)

/-- The lines that were read, and the failure they end in. -/
abbrev Answer := List Text × Option (FluidNCFailure p.ucd)

/-- Whether a line ends the response to a command, or to the query for the status. -/
def endsResponse (expectOk : Bool) (line : Text) : Bool :=
  if expectOk then p.casefold line = "ok".toList else isBracketed line

/-- A round of the response. -/
def responseStep (expectOk : Bool) (deadline : Reading) (sideEffect : Bool)
    (phase : SessionObservationPhase) (state : List Text × Nat) :
    Adapter σ ((List Text × Nat) ⊕ Answer p) := do
  let time ← now t
  if passed deadline time then
    return .inr (state.1, some (SerialFault.responseTimeout.failure p sideEffect))
  else
    match ← readRaw p t session deadline sideEffect with
    | .error f =>
        if f.val.code = SerialFault.readTimeout.code then return .inl state
        else return .inr (state.1, some f)
    | .ok raw =>
        match ← acceptRaw p .responseBounds phase sideEffect state.1 state.2 raw with
        | .error (lines, f) => return .inr (lines, some f)
        | .ok (line, total) =>
            if endsResponse p expectOk line then return .inr (state.1 ++ [line], none)
            else return .inl (state.1 ++ [line], total)

/-- The response to a command or a query. -/
def response (rounds : Nat) (expectOk : Bool) (deadline : Reading) (sideEffect : Bool)
    (phase : SessionObservationPhase) : Adapter σ (Answer p) :=
  iterate (responseStep p t session expectOk deadline sideEffect phase) rounds ([], 0)

/-- A round of the drain. -/
def drainStep (deadline : Reading) (sideEffect : Bool) (phase : SessionObservationPhase)
    (state : List Text × Nat) : Adapter σ ((List Text × Nat) ⊕ Answer p) := do
  match ← perform t.inWaiting with
  | none => return .inr (state.1, some (SerialFault.waitingFailed.failure p sideEffect))
  | some waiting =>
      let time ← now t
      if passed deadline time then
        return .inr (state.1, some (SerialFault.deadline.failure p sideEffect))
      else if waiting = some 0 then
        record .settled
        return .inr (state.1, none)
      else if waiting.all fun n => n < 0 then
        return .inr (state.1, some (SerialFault.waitingInvalid.failure p sideEffect))
      else
        match ← readRaw p t session deadline sideEffect with
        | .error f => return .inr (state.1, some f)
        | .ok raw =>
            match ← acceptRaw p .postAckBounds phase sideEffect state.1 state.2 raw with
            | .error (lines, f) => return .inr (lines, some f)
            | .ok (line, total) => return .inl (state.1 ++ [line], total)

/-- The lines that are waiting after a response. -/
def drainPostAck (rounds : Nat) (deadline : Reading) (sideEffect : Bool)
    (phase : SessionObservationPhase) : Adapter σ (Answer p) :=
  iterate (drainStep p t session deadline sideEffect phase) rounds ([], 0)

/-! ### Commands -/

/-- What became of a command, with the lines that were read. -/
inductive CommandResult where
  | preAckFailure (failure : FluidNCFailure p.ucd) (evidence : List Text)
  | ackObserved (evidence : List Text)
  | postAckFailure (failure : FluidNCFailure p.ucd) (evidence : List Text)

/-- Send a command, and wait for its acknowledgement. -/
def command (rounds : Nat) (text : Text) (deadline : Reading) : Adapter σ (CommandResult p) := do
  match ← write p t session .command (text ++ session.config.lineEnding) deadline true with
  | some f => return .preAckFailure f []
  | none =>
      match ← response p t session rounds true deadline true .actionAdmitted with
      | (lines, some f) => return .preAckFailure f lines
      | (lines, none) =>
          match ← drainPostAck p t session rounds deadline true .actionAdmitted with
          | (drained, some f) => return .postAckFailure f (lines ++ drained)
          | (drained, none) => return .ackObserved (lines ++ drained)

/-! ### Waiting for the idle state -/

/-- What the wait for the idle state ends with. -/
structure IdleSnapshotResult where
  snapshot : PreflightSnapshot
  evidence : List Text
  failure : Option (FluidNCFailure p.ucd)
  idleObserved : Bool

/-- A wait that ended with a failure. -/
def idleFailure (evidence : List Text) (failure : FluidNCFailure p.ucd) (idleObserved : Bool) :
    IdleSnapshotResult p :=
  ⟨snapshotFromEvidence p evidence, evidence, some failure, idleObserved⟩

/-- What the polling of the status ends with: a failure, or the idle status with all lines. -/
abbrev PollResult := Except (IdleSnapshotResult p) (ControllerStatus × List Text)

/-- Ask for the status once. -/
def poll (rounds : Nat) (deadline : Reading) (evidence : List Text) :
    Adapter σ ((Option ControllerStatus × List Text) ⊕ PollResult p) := do
  match ← write p t session (fun _ => .query .status) "?".toList deadline true with
  | some f => return .inr (.error (idleFailure p evidence f false))
  | none =>
      match ← response p t session rounds false deadline true .actionAdmitted with
      | (lines, some f) => return .inr (.error (idleFailure p (evidence ++ lines) f false))
      | (lines, none) =>
          match lastStatus p lines with
          | none => escape .raised
          | some status =>
              match ← drainPostAck p t session rounds deadline true .actionAdmitted with
              | (drained, some f) =>
                  return .inr (.error (idleFailure p (evidence ++ lines ++ drained) f
                    (status.state = .idle)))
              | (drained, none) =>
                  return .inl (lastStatus p (lines ++ drained), evidence ++ lines ++ drained)

/-- A round of the polling: the status is idle, or not going to be, or asked for again. -/
def pollStep (rounds : Nat) (deadline : Reading) (state : Option ControllerStatus × List Text) :
    Adapter σ ((Option ControllerStatus × List Text) ⊕ PollResult p) :=
  match state with
  | (none, evidence) => poll p t session rounds deadline evidence
  | (some status, evidence) =>
      if status.state = .idle then return .inr (.ok (status, evidence))
      else if status.state ∈ [FluidNCState.run, .hold, .home] then
        poll p t session rounds deadline evidence
      else
        return .inr (.error (idleFailure p evidence (SerialFault.notIdle.failure p true) false))

/-- Ask for the parser state or the offsets: the answer, and all lines. -/
def ask (rounds : Nat) (q : ControllerQuery) (text : Text) (deadline : Reading)
    (evidence : List Text) :
    Adapter σ (Except (IdleSnapshotResult p) (List Text × List Text)) := do
  match ← write p t session (fun _ => .query q) (text ++ session.config.lineEnding) deadline true with
  | some f => return .error (idleFailure p evidence f true)
  | none =>
      match ← response p t session rounds true deadline true .actionAdmitted with
      | (lines, some f) => return .error (idleFailure p (evidence ++ lines) f true)
      | (lines, none) =>
          match ← drainPostAck p t session rounds deadline true .actionAdmitted with
          | (drained, some f) => return .error (idleFailure p (evidence ++ lines ++ drained) f true)
          | (drained, none) =>
              return .ok ((lines ++ drained).filter (· ≠ "ok".toList), evidence ++ lines ++ drained)

/-- The snapshot of an idle controller. -/
def idleSnapshot (status : ControllerStatus) (parserLines offsetLines evidence : List Text) :
    IdleSnapshotResult p :=
  let r := safeSnapshot p (some status.statusLine) parserLines offsetLines true
  ⟨r.1, evidence, r.2, true⟩

/-- Wait until the controller is idle, and take a snapshot of it. The last status among the
given lines is taken for its state. -/
def waitForIdleSnapshot (rounds : Nat) (deadline : Reading) (initialEvidence : List Text) :
    Adapter σ (IdleSnapshotResult p) := do
  match ← iterate (pollStep p t session rounds deadline) rounds
      (lastStatus p initialEvidence, initialEvidence) with
  | .error r => return r
  | .ok (status, evidence) =>
      match ← ask p t session rounds .parser "$G".toList deadline evidence with
      | .error r => return r
      | .ok (parserLines, evidence) =>
          match ← ask p t session rounds .offsets "$#".toList deadline evidence with
          | .error r => return r
          | .ok (offsetLines, evidence) =>
              return idleSnapshot p status parserLines offsetLines evidence

end Serial

end DrawingMachine
