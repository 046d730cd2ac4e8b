import DrawingMachine.Fluidnc.Outcomes

/-!
# Lines from the controller

What the serial adapter makes of the bytes it reads: the lines, the failures that a line
shows, the statuses among them, and the part of them that an outcome carries.
-/

namespace DrawingMachine

/-! ### Failures of the adapter -/

/-- The ways in which the adapter fails, each with a text of its own. -/
inductive SerialFault where
  | sessionClosed | deadline | writeFailed | shortWrite
  | responseBounds | responseTimeout | postAckBounds
  | readFailed | readType | eof | readTimeout
  | waitingFailed | waitingInvalid
  | lineTooLong | decodeFailed | lineEnding | lineInvalid
  | snapshotInvalid | alarmLine | errorLine | statusInvalid | alarmState | resetDetected
  | notIdle | startupBounds | startupDeadline | progressCallback
  | postHome | postZcal | postZconfirm
  deriving DecidableEq, Repr

namespace SerialFault

/-- The code of a failure. -/
def code : SerialFault → String
  | .sessionClosed => "SERIAL_SESSION_CLOSED"
  | .deadline => "SERIAL_RESPONSE_TIMEOUT"
  | .writeFailed => "SERIAL_WRITE_FAILED"
  | .shortWrite => "SERIAL_SHORT_WRITE"
  | .responseBounds => "SERIAL_RESPONSE_BOUNDS_EXCEEDED"
  | .responseTimeout => "SERIAL_RESPONSE_TIMEOUT"
  | .postAckBounds => "SERIAL_RESPONSE_BOUNDS_EXCEEDED"
  | .readFailed => "SERIAL_READ_FAILED"
  | .readType => "SERIAL_READ_TYPE_INVALID"
  | .eof => "SERIAL_EOF"
  | .readTimeout => "SERIAL_READ_TIMEOUT"
  | .waitingFailed => "SERIAL_WAITING_FAILED"
  | .waitingInvalid => "SERIAL_WAITING_INVALID"
  | .lineTooLong => "SERIAL_LINE_TOO_LONG"
  | .decodeFailed => "SERIAL_DECODE_FAILED"
  | .lineEnding => "SERIAL_LINE_ENDING_INVALID"
  | .lineInvalid => "SERIAL_LINE_INVALID"
  | .snapshotInvalid => "CONTROLLER_SNAPSHOT_INVALID"
  | .alarmLine => "CONTROLLER_ALARM"
  | .errorLine => "CONTROLLER_ERROR"
  | .statusInvalid => "CONTROLLER_STATUS_INVALID"
  | .alarmState => "CONTROLLER_ALARM"
  | .resetDetected => "CONTROLLER_RESET_DETECTED"
  | .notIdle => "CONTROLLER_NOT_IDLE"
  | .startupBounds => "STARTUP_BOUNDS_EXCEEDED"
  | .startupDeadline => "STARTUP_DEADLINE_EXCEEDED"
  | .progressCallback => "PROGRESS_CALLBACK_FAILED"
  | .postHome => "POST_HOME_PROOF_FAILED"
  | .postZcal => "POST_ZCAL_PROOF_FAILED"
  | .postZconfirm => "POST_ZCONFIRM_PROOF_FAILED"

/-- The message of a failure. -/
def message : SerialFault → String
  | .sessionClosed => "FluidNC serial session is closed"
  | .deadline => "FluidNC absolute operation deadline expired"
  | .writeFailed => "FluidNC serial write failed"
  | .shortWrite => "FluidNC serial write was incomplete"
  | .responseBounds => "FluidNC response exceeded its bounds"
  | .responseTimeout => "FluidNC response deadline expired"
  | .postAckBounds => "FluidNC post-ACK response exceeded its bounds"
  | .readFailed => "FluidNC serial read failed"
  | .readType => "FluidNC serial read returned an invalid byte value"
  | .eof => "FluidNC serial connection reached EOF"
  | .readTimeout => "FluidNC serial read timed out"
  | .waitingFailed => "FluidNC pending-response inspection failed"
  | .waitingInvalid => "FluidNC pending-response count was invalid"
  | .lineTooLong => "FluidNC returned an oversized line"
  | .decodeFailed => "FluidNC returned invalid UTF-8"
  | .lineEnding => "FluidNC returned a line without a complete ending"
  | .lineInvalid => "FluidNC returned an invalid line"
  | .snapshotInvalid => "FluidNC returned an invalid preflight snapshot"
  | .alarmLine => "FluidNC returned an alarm"
  | .errorLine => "FluidNC returned an error"
  | .statusInvalid => "FluidNC returned an invalid status line"
  | .alarmState => "FluidNC reported the Alarm state"
  | .resetDetected => "FluidNC reset evidence invalidated the active session"
  | .notIdle => "FluidNC entered an unsafe non-Idle state"
  | .startupBounds => "FluidNC startup stabilization exceeded its bounds"
  | .startupDeadline => "FluidNC startup stabilization exceeded its deadline"
  | .progressCallback => "STREAM progress callback failed"
  | .postHome => "FluidNC post-HOME proof failed"
  | .postZcal => "FluidNC post-ZCAL Idle proof failed"
  | .postZconfirm => "FluidNC post-ZCONFIRM proof failed"

/-- The kind of a failure. A command whose answer does not come is lost, and a query whose
answer does not come has timed out. -/
def kind (sideEffect : Bool) : SerialFault → FluidNCFailureKind
  | .sessionClosed | .writeFailed | .readFailed | .eof | .waitingFailed => .transportLoss
  | .deadline | .responseBounds | .responseTimeout | .postAckBounds | .readTimeout =>
      if sideEffect then .lostAck else .timeout
  | .shortWrite => .shortWrite
  | .readType | .waitingInvalid | .lineTooLong | .decodeFailed | .lineEnding | .lineInvalid
  | .snapshotInvalid | .statusInvalid => .decodeError
  | .alarmLine | .alarmState => .alarm
  | .errorLine | .notIdle | .progressCallback | .postHome | .postZcal | .postZconfirm =>
      .controllerError
  | .resetDetected => .controllerReset
  | .startupBounds | .startupDeadline => .timeout

/-- Whether a failure is always reported with a side effect. -/
def provesSideEffect : SerialFault → Bool
  | .shortWrite | .resetDetected => true
  | _ => false

/-- A text of printable ASCII characters. -/
def Printable (s : String) : Prop := ∀ c ∈ s.toList, 0x20 ≤ c.toNat ∧ c.toNat < 0x7F

instance (s : String) : Decidable (Printable s) := inferInstanceAs (Decidable (∀ c ∈ _, _))

/-- The texts of the failures are accepted ones. -/
theorem texts (f : SerialFault) :
  SafeText f.code ∧ f.message ≠ "" ∧ Printable f.message ∧ f.message.toList.length ≤ 4096 ∧
    byteLength f.message.toList ≤ 4096
  := by
  cases f <;> decide +kernel

variable (p : Platform)

/-- A failure with an accepted text is accepted, when it has a side effect if it is of a
kind that proves one. -/
theorem postInit_of_texts (f : SerialFault) {kind : FluidNCFailureKind} {sideEffect : Bool}
    (h : kind ∈ [FluidNCFailureKind.lostAck, .controllerReset, .shortWrite] → sideEffect = true) :
  FluidNCFailure.Fields.postInit p.ucd ⟨kind, f.code, f.message, sideEffect⟩ = .ok ()
  := by
  obtain ⟨hcode, hne, hprintable, hlength, hbytes⟩ := f.texts
  simp only [FluidNCFailure.Fields.postInit, Except.unit_bind_eq_ok_iff, refuseIf_eq_ok_iff,
    not_not, not_or, not_lt, not_exists, not_and]
  refine ⟨hcode, hne, ⟨hlength, ?_⟩, hbytes, ?_⟩
  · intro c hc
    rw [p.printable c (hprintable c hc).1 (hprintable c hc).2]
    decide
  · intro hkind
    rw [h hkind]
    decide

/-- A failure of the adapter. -/
def failure (f : SerialFault) (sideEffect : Bool) : FluidNCFailure p.ucd :=
  ⟨⟨f.kind sideEffect, f.code, f.message, sideEffect || f.provesSideEffect⟩,
    f.postInit_of_texts p (by cases f <;> cases sideEffect <;> decide)⟩

/-- A failure after the controller was idle, reported as one of the postcondition. -/
def postcondition (f : SerialFault) (earlier : FluidNCFailure p.ucd) : FluidNCFailure p.ucd :=
  ⟨⟨earlier.val.kind, f.code, f.message, true⟩, f.postInit_of_texts p fun _ => rfl⟩

end SerialFault

namespace Serial

variable (p : Platform)

/-! ### Decoding -/

/-- A line without its ending. -/
def withoutEnding? (value : Text) : Option Text :=
  if "\r\n".toList.isSuffixOf value then some value.dropLast.dropLast
  else if "\n".toList.isSuffixOf value then some value.dropLast
  else none

/-- The line that a number of bytes make. -/
def decodeLine (raw : List UInt8) (sideEffect : Bool) : Except (FluidNCFailure p.ucd) Text :=
  if 4096 < raw.length then .error (SerialFault.lineTooLong.failure p sideEffect)
  else match Text.decode? raw with
    | none => .error (SerialFault.decodeFailed.failure p sideEffect)
    | some value =>
        match withoutEnding? value with
        | none => .error (SerialFault.lineEnding.failure p sideEffect)
        | some line =>
            if line = [] ∨ ∃ c ∈ line, forbiddenLineCharacter p.ucd c = true then
              .error (SerialFault.lineInvalid.failure p sideEffect)
            else .ok line

/-! ### Statuses -/

/-- A line in angle brackets. -/
def isBracketed (line : Text) : Bool := line.head? = some '<' && line.getLast? = some '>'

/-- The status that a line reports. -/
def statusFromLine (line : Text) : Option ControllerStatus :=
  if isBracketed line then (parseControllerStatus p line).toOption else none

/-- The last status that a number of lines report. -/
def lastStatus (lines : List Text) : Option ControllerStatus :=
  lines.reverse.findSome? (statusFromLine p)

/-- The status that stands for a controller which did not report one. -/
def unavailableStatus : ControllerStatus where
  state := .other
  stateText := "Unavailable"
  mpos := none
  wpos := none
  wco := none
  statusLine := "<Unavailable>".toList

/-- The snapshot of nothing but a status. -/
def statusSnapshot (s : ControllerStatus) : PreflightSnapshot where
  status := s
  parserState := []
  offsetLines := []
  offsets := []
  errors := []
  missingOkCommands := []

/-- The snapshot of a controller which did not report a status. -/
def unavailableSnapshot : PreflightSnapshot := statusSnapshot unavailableStatus

/-- The snapshot of the last status among a number of lines. -/
def snapshotFromEvidence (evidence : List Text) : PreflightSnapshot :=
  match lastStatus p evidence with
  | none => unavailableSnapshot
  | some s => statusSnapshot s

/-- The snapshot of a status line and the answers to the queries. -/
def snapshotOrUnavailable (statusLine : Option Text) (parserLines offsetLines : List Text) :
    Except ErrorPayload PreflightSnapshot :=
  parsePreflightSnapshot p (statusLine.getD "<Unavailable>".toList) parserLines offsetLines [] []

/-- The snapshot of a status line and the answers to the queries, with the failure of one
that is not accepted. -/
def safeSnapshot (statusLine : Option Text) (parserLines offsetLines : List Text)
    (sideEffect : Bool) : PreflightSnapshot × Option (FluidNCFailure p.ucd) :=
  match snapshotOrUnavailable p statusLine parserLines offsetLines with
  | .ok snapshot => (snapshot, none)
  | .error _ => (unavailableSnapshot, some (SerialFault.snapshotInvalid.failure p sideEffect))

/-! ### Failures that a line shows -/

/-- The failure that a line shows, if it shows one. -/
def lineFailure (line : Text) (phase : SessionObservationPhase) (sideEffect : Bool) :
    Option (FluidNCFailure p.ucd) :=
  let lowered := p.casefold line
  let status := statusFromLine p line
  if "alarm".toList.isPrefixOf lowered then some (SerialFault.alarmLine.failure p sideEffect)
  else if "error".toList.isPrefixOf lowered then some (SerialFault.errorLine.failure p sideEffect)
  else if isBracketed line && status.isNone then
    some (SerialFault.statusInvalid.failure p sideEffect)
  else if status.any fun s => s.state = .alarm then
    some (SerialFault.alarmState.failure p sideEffect)
  else if (observationDecision p [line] (status.getD unavailableStatus) phase).disposition
      = .recoveryRequired then
    some (SerialFault.resetDetected.failure p sideEffect)
  else none

/-! ### Evidence -/

/-- The lines in front of a list that fit into what an outcome may carry, after the given
number of lines and bytes. -/
def boundedFrom : Nat → Nat → List Text → List Text
  | _, _, [] => []
  | count, total, line :: rest =>
      if 256 ≤ count ∨ 64 * 1024 < total + byteLength line then []
      else line :: boundedFrom (count + 1) (total + byteLength line) rest

/-- The lines in front of a list that fit into what an outcome may carry. -/
def boundedEvidence (lines : List Text) : List Text := boundedFrom 0 0 lines

/-- The failure and the observation of an operation after the session was opened: if its
lines or its status show a reset, this is its failure. -/
def lateObservation (snapshot : PreflightSnapshot) (evidence : List Text)
    (failure : Option (FluidNCFailure p.ucd)) :
    Option (FluidNCFailure p.ucd) × Option Observation :=
  let accepted := boundedEvidence evidence
  let decision := observationDecision p accepted snapshot.status .actionAdmitted
  if decision.disposition = .recoveryRequired then
    (some (SerialFault.resetDetected.failure p true), some ⟨accepted, .actionAdmitted, decision⟩)
  else (failure, none)

end Serial

end DrawingMachine
