import DrawingMachine.Fluidnc.Gates
import DrawingMachine.Gcode.StreamProgram

/-!
# Outcomes of the controller's operations

The requests to a FluidNC session and the outcomes it answers with, each with the checks
of its constructor: an outcome whose parts contradict each other cannot be built.
-/

namespace DrawingMachine

/-- What the constructor of a value of the port raises: a `TypeError`, or an error of the
program from one of the functions it calls. -/
inductive PortError where
  | typeError (message : String)
  | payload (e : ErrorPayload)
  deriving DecidableEq, Repr

/-- A step of a constructor that may raise an error of the program. -/
def PortError.raising {α : Type} : Except ErrorPayload α → Except PortError α
  | .ok a => .ok a
  | .error e => .error (.payload e)

/-- The step succeeds as it did. -/
@[simp] theorem PortError.raising_eq_ok_iff {α : Type} {x : Except ErrorPayload α} {a : α} :
  PortError.raising x = .ok a ↔ x = .ok a
  := by
  cases x <;> simp [PortError.raising]

/-- Stop with a `TypeError` when `bad` holds. -/
def refuseIf (bad : Prop) [Decidable bad] (message : String) : Except PortError Unit :=
  rejectIf bad (.typeError message)

/-- A refusal passes exactly when its condition fails. -/
@[simp] theorem refuseIf_eq_ok_iff {bad : Prop} [Decidable bad] {message : String} :
  refuseIf bad message = .ok () ↔ ¬ bad
  := by
  simp [refuseIf]

/-- A text that is the canonical form of a UUID. -/
def CanonicalUuid (s : String) : Prop :=
  s.toList.length = 36 ∧
    ∀ p ∈ s.toList.zipIdx,
      if p.2 ∈ [8, 13, 18, 23] then p.1 = '-'
      else isAsciiDigit p.1 = true ∨ ('a'.toNat ≤ p.1.toNat ∧ p.1.toNat ≤ 'f'.toNat)

instance (s : String) : Decidable (CanonicalUuid s) :=
  inferInstanceAs (Decidable (_ ∧ _))

/-- The check of the epoch of a session. -/
def checkEpoch (epoch : String) : Except PortError Unit :=
  refuseIf (¬ CanonicalUuid epoch) "machine session epoch must be a canonical UUID"

/-! ### Failures -/

/-- The kind of a failure. -/
inductive FluidNCFailureKind where
  | alarm | controllerError | timeout | transportLoss | lostAck | controllerReset | shortWrite
  | decodeError | closeError
  deriving DecidableEq, Repr

/-- How an operation failed. -/
structure FluidNCFailure.Fields where
  kind : FluidNCFailureKind
  code : String
  message : String
  sideEffectMayHaveOccurred : Bool
  deriving DecidableEq, Repr

/-- A code: an upper-case letter, and at most 63 such letters, digits and underscores. -/
def SafeText (code : String) : Prop :=
  code.toList.length ≤ 64 ∧
    (code.toList.head?.any fun c => 'A'.toNat ≤ c.toNat ∧ c.toNat ≤ 'Z'.toNat) = true ∧
    ∀ c ∈ code.toList, ('A'.toNat ≤ c.toNat ∧ c.toNat ≤ 'Z'.toNat) ∨
      ('0'.toNat ≤ c.toNat ∧ c.toNat ≤ '9'.toNat) ∨ c = '_'

instance (code : String) : Decidable (SafeText code) :=
  inferInstanceAs (Decidable (_ ∧ _ ∧ _))

/-- The checks of a failure. -/
def FluidNCFailure.Fields.postInit (ucd : UnicodeData) (f : FluidNCFailure.Fields) :
    Except PortError Unit := do
  refuseIf (¬ SafeText f.code) "failure code must be bounded canonical ASCII"
  refuseIf (f.message = "") "failure message must be a non-empty exact string"
  refuseIf (4096 < f.message.toList.length ∨
      ∃ c ∈ f.message.toList, forbiddenLineCharacter ucd c = true)
    "failure message must be one bounded line"
  refuseIf (4096 < byteLength f.message.toList)
    "failure message must fit the bounded UTF-8 byte limit"
  refuseIf (f.kind ∈ [FluidNCFailureKind.lostAck, .controllerReset, .shortWrite] ∧
      f.sideEffectMayHaveOccurred = false)
    "this failure kind intrinsically proves a possible side effect"

/-- A failure. -/
abbrev FluidNCFailure (ucd : UnicodeData) :=
  { f : FluidNCFailure.Fields // f.postInit ucd = .ok () }

/-- The codes of a motion that did not end where it should. -/
def reservedMotionProofFailureCodes : List String :=
  ["POST_HOME_PROOF_FAILED", "POST_ZCAL_PROOF_FAILED", "POST_ZCONFIRM_PROOF_FAILED"]

/-! ### Requests -/

/-- The request to home all axes. -/
structure HomeAllAxesRequest.Fields where
  expectedMpos : Vector3
  toleranceMm : ℚ
  deriving DecidableEq, Repr

/-- The checks of a request to home all axes. -/
def HomeAllAxesRequest.Fields.postInit (r : HomeAllAxesRequest.Fields) : Except PortError Unit :=
  refuseIf (r.toleranceMm ≤ 0) "tolerance_mm must be positive"

/-- A request to home all axes. -/
abbrev HomeAllAxesRequest := { r : HomeAllAxesRequest.Fields // r.postInit = .ok () }

/-- The request to calibrate the pen. -/
structure ZCalibrationRequest.Fields where
  workCoordinate : String
  centerX : ℚ
  centerY : ℚ
  travelZ : ℚ
  contactZ : ℚ
  travelFeed : ℚ
  contactFeed : ℚ
  deriving DecidableEq, Repr

/-- The checks of a request to calibrate the pen. -/
def ZCalibrationRequest.Fields.postInit (r : ZCalibrationRequest.Fields) :
    Except PortError Unit := do
  refuseIf (r.workCoordinate ≠ "G54") "work coordinate must be exactly G54"
  refuseIf (r.centerX < 0) "center_x must be non-negative"
  refuseIf (r.centerY < 0) "center_y must be non-negative"
  refuseIf (r.travelZ < 0) "travel_z must be non-negative"
  refuseIf (r.contactZ < 0) "contact_z must be non-negative"
  refuseIf (r.travelZ ≤ r.contactZ) "contact_z must be below travel_z"
  refuseIf (r.travelFeed ≤ 0) "travel_feed must be positive"
  refuseIf (r.contactFeed ≤ 0) "contact_feed must be positive"

/-- A request to calibrate the pen. -/
abbrev ZCalibrationRequest := { r : ZCalibrationRequest.Fields // r.postInit = .ok () }

/-- The request to raise the pen after the calibration. -/
structure ZConfirmationRequest.Fields where
  expectedWorkPosition : Vector3
  travelZ : ℚ
  raiseFeed : ℚ
  toleranceMm : ℚ
  deriving DecidableEq, Repr

/-- The checks of a request to raise the pen. -/
def ZConfirmationRequest.Fields.postInit (r : ZConfirmationRequest.Fields) :
    Except PortError Unit := do
  refuseIf (r.travelZ < 0) "travel_z must be non-negative"
  refuseIf (r.expectedWorkPosition.z ≠ r.travelZ) "expected work Z must equal travel_z"
  refuseIf (r.raiseFeed ≤ 0) "raise_feed must be positive"
  refuseIf (r.toleranceMm ≤ 0) "tolerance_mm must be positive"

/-- A request to raise the pen. -/
abbrev ZConfirmationRequest := { r : ZConfirmationRequest.Fields // r.postInit = .ok () }

/-! ### Observations -/

section

variable (p : Platform)

/-- The lines an outcome may carry: at most 256, of at most 64 KiB together, none of them
empty or broken. -/
def evidenceBytes : Nat → List Text → Except PortError Unit
  | _, [] => .ok ()
  | total, line :: rest => do
      refuseIf (line = [] ∨ '\r' ∈ line ∨ '\n' ∈ line ∨ '\x00' ∈ line)
        "session evidence must contain exact one-line strings"
      refuseIf (64 * 1024 < total + byteLength line) "session evidence exceeds its byte bound"
      evidenceBytes (total + byteLength line) rest

/-- The check of the lines of an outcome. -/
def checkSessionEvidence (evidence : List Text) : Except PortError Unit := do
  refuseIf (256 < evidence.length) "session evidence must be a bounded exact tuple"
  evidenceBytes 0 evidence

/-- What an outcome says about the lines it was observed by. -/
structure Observation where
  evidence : List Text
  phase : SessionObservationPhase
  decision : GateDecision
  deriving DecidableEq, Repr

/-- Whether a failure is a reset of the controller. -/
def FluidNCFailure.isReset {ucd : UnicodeData} (failure : Option (FluidNCFailure ucd)) : Bool :=
  failure.any fun f => f.val.kind = .controllerReset

/-- Whether a snapshot shows on its own that the controller was reset. -/
def snapshotProvesReset : Option PreflightSnapshot → Except PortError Bool
  | none => .ok false
  | some s => do
      let decision ← PortError.raising (classifySessionObservation p [] s.status .actionAdmitted)
      return decide (decision.disposition = .recoveryRequired)

/-- The check of an outcome without an observation. -/
def checkUnobserved (snapshot : Option PreflightSnapshot) (failure : Option (FluidNCFailure p.ucd)) :
    Except PortError Unit := do
  let provesReset ← snapshotProvesReset p snapshot
  refuseIf (provesReset = true ∨ FluidNCFailure.isReset failure = true)
    "controller-reset evidence requires a complete bound session observation"

/-- The check of an observation. -/
def checkObservation (snapshot : Option PreflightSnapshot) (o : Observation)
    (failure : Option (FluidNCFailure p.ucd)) : Except PortError Unit :=
  match snapshot with
  | none =>
      .error (.typeError "session observation requires exact snapshot, phase, and decision")
  | some s => do
      checkSessionEvidence o.evidence
      let decision ← PortError.raising (classifySessionObservation p o.evidence s.status o.phase)
      refuseIf (o.decision ≠ decision)
        "session observation decision contradicts its reset evidence"
      refuseIf (o.phase = .freshStabilization)
        "post-open operation cannot report a fresh-stabilization observation"
      refuseIf (FluidNCFailure.isReset failure ≠ decide (o.decision.disposition = .recoveryRequired))
        "late reset observation requires a bound controller-reset failure and recovery decision"

/-- The check of the optional observation of an outcome. Its parts are given together or
not at all. -/
def validateOptionalObservation (snapshot : Option PreflightSnapshot)
    (observation : Option Observation) (failure : Option (FluidNCFailure p.ucd)) :
    Except PortError Unit :=
  match observation with
  | none => checkUnobserved p snapshot failure
  | some o => checkObservation p snapshot o failure

/-! ### Progress -/

/-- How far an operation of a single command got. -/
inductive SingleCommandOutcomeStage where
  | dispatchAttempted | commandAcknowledged | idleObserved | postconditionProven
  deriving DecidableEq, Repr

/-- How far a calibration got. -/
inductive ZCalibrationOutcomeStage where
  | metricAttempted | metricAcknowledged | absoluteAttempted | absoluteAcknowledged
  | workCoordinateAttempted | workCoordinateAcknowledged | penUpAttempted | penUpAcknowledged
  | centerAttempted | centerAcknowledged | contactAttempted | contactAcknowledged
  | postcondition
  deriving DecidableEq, Repr

/-- The number of acknowledgements at a stage of a single command. -/
def SingleCommandOutcomeStage.acknowledgements : SingleCommandOutcomeStage → Nat
  | .dispatchAttempted => 0
  | _ => 1

/-- The check of a stage that is not the last one. -/
def checkIncompleteStage (acknowledged : Nat) (stage : SingleCommandOutcomeStage)
    (snapshot : Option PreflightSnapshot) (failure : Option (FluidNCFailure p.ucd))
    (proofFailureCode : String) : Except PortError Unit :=
  match failure with
  | none => .error (.typeError "incomplete single-command stage requires typed failure evidence")
  | some f => do
      refuseIf (0 < acknowledged ∧ f.val.sideEffectMayHaveOccurred = false)
        "acknowledged single-command failure requires possible side-effect evidence"
      refuseIf (f.val.code ∈ reservedMotionProofFailureCodes ∧
          (f.val.code ≠ proofFailureCode ∨ stage ≠ .idleObserved))
        "reserved proof failure requires its exact action and Idle-observed stage"
      refuseIf (stage = .idleObserved ∧
          ((snapshot.any fun s => s.status.isIdle) = false ∨ f.val.code ≠ proofFailureCode))
        "Idle-observed stage requires its exact postcondition failure"

/-- The check of the progress of a single command. -/
def validateSingleCommandProgress (acknowledged : Nat) (stage : SingleCommandOutcomeStage)
    (snapshot : Option PreflightSnapshot) (failure : Option (FluidNCFailure p.ucd))
    (proofReady : Bool) (proofFailureCode : String) : Except PortError Unit := do
  refuseIf (1 < acknowledged) "single-command outcome acknowledgements must be zero or one"
  refuseIf (acknowledged ≠ stage.acknowledgements)
    "single-command outcome stage contradicts its acknowledgement count"
  if stage = .postconditionProven then
    refuseIf (failure ≠ none ∨ proofReady = false)
      "postcondition-proven stage requires an exact successful proof"
  else checkIncompleteStage p acknowledged stage snapshot failure proofFailureCode

/-- The stages of a calibration at which a step was attempted. -/
def attemptedStages : List ZCalibrationOutcomeStage :=
  [.metricAttempted, .absoluteAttempted, .workCoordinateAttempted, .penUpAttempted,
    .centerAttempted, .contactAttempted]

/-- The stages of a calibration at which a step was acknowledged. -/
def acknowledgedStages : List ZCalibrationOutcomeStage :=
  [.metricAcknowledged, .absoluteAcknowledged, .workCoordinateAcknowledged, .penUpAcknowledged,
    .centerAcknowledged, .contactAcknowledged]

/-- Whether the stage of a calibration agrees with the number of acknowledged steps. -/
def zcalStageValid (acknowledged : Nat) (stage : ZCalibrationOutcomeStage) (failed : Bool) : Bool :=
  if failed = false then acknowledged = 6 && stage = .postcondition
  else if acknowledged = 6 then stage = .contactAcknowledged || stage = .postcondition
  else (acknowledged < 6 && attemptedStages[acknowledged]? = some stage) ||
    (0 < acknowledged && acknowledgedStages[acknowledged - 1]? = some stage)

/-- The check of the progress of a calibration. -/
def validateZcalProgress (acknowledged : Nat) (stage : ZCalibrationOutcomeStage)
    (failure : Option (FluidNCFailure p.ucd)) : Except PortError Unit := do
  refuseIf ((failure.any fun f => f.val.code ∈ reservedMotionProofFailureCodes &&
      (f.val.code ≠ "POST_ZCAL_PROOF_FAILED" || stage ≠ .postcondition)) = true)
    "reserved proof failure requires the exact ZCAL postcondition stage"
  refuseIf (zcalStageValid acknowledged stage failure.isSome = false)
    "ZCAL outcome stage contradicts the exact fixed-sequence ACK boundary"

/-- Whether a snapshot proves that the controller is idle. -/
def isExactIdleProof (snapshot : Option PreflightSnapshot) : Bool :=
  snapshot.any fun s => s.status.isIdle && s.errors.isEmpty && s.missingOkCommands.isEmpty

/-! ### Outcomes -/

/-- The outcome of homing all axes. -/
structure HomeOutcome.Fields where
  machineSessionEpoch : String
  request : HomeAllAxesRequest
  snapshot : Option PreflightSnapshot
  failure : Option (FluidNCFailure p.ucd)
  observation : Option Observation
  acknowledgedSteps : Nat
  stage : SingleCommandOutcomeStage

/-- Whether the snapshot proves that all axes are homed. -/
def HomeOutcome.Fields.proofReady (o : HomeOutcome.Fields p) : Bool :=
  o.snapshot.any fun s =>
    (evaluatePostHome p s o.request.val.expectedMpos o.request.val.toleranceMm).disposition = .ready

/-- The checks of the outcome of homing all axes. -/
def HomeOutcome.Fields.postInit (o : HomeOutcome.Fields p) : Except PortError Unit := do
  checkEpoch o.machineSessionEpoch
  validateOptionalObservation p o.snapshot o.observation o.failure
  refuseIf (o.failure = none ∧ o.proofReady = false)
    "successful HOME outcome requires an exact post-HOME proof"
  validateSingleCommandProgress p o.acknowledgedSteps o.stage o.snapshot o.failure o.proofReady
    "POST_HOME_PROOF_FAILED"

/-- An outcome of homing all axes. -/
abbrev HomeOutcome := { o : HomeOutcome.Fields p // o.postInit = .ok () }

/-- The outcome of a calibration. -/
structure ZCalibrationOutcome.Fields where
  machineSessionEpoch : String
  request : ZCalibrationRequest
  acknowledgedSteps : Nat
  snapshot : Option PreflightSnapshot
  failure : Option (FluidNCFailure p.ucd)
  observation : Option Observation
  stage : ZCalibrationOutcomeStage

/-- The checks of the outcome of a calibration. -/
def ZCalibrationOutcome.Fields.postInit (o : ZCalibrationOutcome.Fields p) :
    Except PortError Unit := do
  checkEpoch o.machineSessionEpoch
  refuseIf (6 < o.acknowledgedSteps) "ZCAL acknowledged steps cannot exceed the fixed sequence"
  validateOptionalObservation p o.snapshot o.observation o.failure
  refuseIf (o.failure = none ∧ o.acknowledgedSteps ≠ 6)
    "successful ZCAL outcome requires all six fixed acknowledgements"
  refuseIf ((o.failure.any fun f => !f.val.sideEffectMayHaveOccurred) = true ∧
      0 < o.acknowledgedSteps)
    "failed acknowledged ZCAL requires possible side-effect evidence"
  validateZcalProgress p o.acknowledgedSteps o.stage o.failure

/-- An outcome of a calibration. -/
abbrev ZCalibrationOutcome := { o : ZCalibrationOutcome.Fields p // o.postInit = .ok () }

/-- The outcome of raising the pen after the calibration. -/
structure ZConfirmationOutcome.Fields where
  machineSessionEpoch : String
  request : ZConfirmationRequest
  snapshot : Option PreflightSnapshot
  failure : Option (FluidNCFailure p.ucd)
  observation : Option Observation
  acknowledgedSteps : Nat
  stage : SingleCommandOutcomeStage

/-- Whether the snapshot proves that the pen is where it should be. -/
def ZConfirmationOutcome.Fields.proofReady (o : ZConfirmationOutcome.Fields p) : Bool :=
  o.snapshot.any fun s =>
    (evaluateCalibratedPose p s o.request.val.expectedWorkPosition
      o.request.val.toleranceMm).disposition = .ready

/-- The checks of the outcome of raising the pen. -/
def ZConfirmationOutcome.Fields.postInit (o : ZConfirmationOutcome.Fields p) :
    Except PortError Unit := do
  checkEpoch o.machineSessionEpoch
  validateOptionalObservation p o.snapshot o.observation o.failure
  refuseIf (o.failure = none ∧ o.proofReady = false)
    "successful ZCONFIRM outcome requires an exact ZCONFIRM proof from calibrated pose"
  validateSingleCommandProgress p o.acknowledgedSteps o.stage o.snapshot o.failure o.proofReady
    "POST_ZCONFIRM_PROOF_FAILED"

/-- An outcome of raising the pen. -/
abbrev ZConfirmationOutcome := { o : ZConfirmationOutcome.Fields p // o.postInit = .ok () }

/-- The outcome of homing the pen axis. -/
structure HomeZOutcome.Fields where
  machineSessionEpoch : String
  snapshot : Option PreflightSnapshot
  failure : Option (FluidNCFailure p.ucd)
  observation : Option Observation

/-- The checks of the outcome of homing the pen axis. -/
def HomeZOutcome.Fields.postInit (o : HomeZOutcome.Fields p) : Except PortError Unit := do
  checkEpoch o.machineSessionEpoch
  validateOptionalObservation p o.snapshot o.observation o.failure
  refuseIf (o.failure = none ∧ isExactIdleProof o.snapshot = false)
    "successful HOME_Z outcome requires an exact Idle proof"

/-- An outcome of homing the pen axis. -/
abbrev HomeZOutcome := { o : HomeZOutcome.Fields p // o.postInit = .ok () }

/-- The outcome of streaming a program. -/
structure StreamOutcome.Fields where
  machineSessionEpoch : String
  totalCommands : Nat
  acknowledgedCommands : Nat
  finalSnapshot : Option PreflightSnapshot
  failure : Option (FluidNCFailure p.ucd)
  observation : Option Observation

/-- The checks of the outcome of streaming a program. -/
def StreamOutcome.Fields.postInit (o : StreamOutcome.Fields p) : Except PortError Unit := do
  checkEpoch o.machineSessionEpoch
  refuseIf (o.totalCommands < 1) "total_commands must be an exact integer of at least 1"
  refuseIf (o.totalCommands < o.acknowledgedCommands)
    "acknowledged commands cannot exceed total commands"
  refuseIf ((o.failure.any fun f => !f.val.sideEffectMayHaveOccurred) = true ∧
      0 < o.acknowledgedCommands)
    "failed acknowledged STREAM requires possible side-effect evidence"
  refuseIf (o.failure = none ∧
      (o.acknowledgedCommands ≠ o.totalCommands ∨ isExactIdleProof o.finalSnapshot = false))
    "successful STREAM requires every ACK and an exact final Idle proof"
  validateOptionalObservation p o.finalSnapshot o.observation o.failure

/-- An outcome of streaming a program. -/
abbrev StreamOutcome := { o : StreamOutcome.Fields p // o.postInit = .ok () }

/-- The outcome of the first look at the controller. -/
structure PreflightOutcome.Fields where
  machineSessionEpoch : String
  snapshot : PreflightSnapshot
  evidence : List Text
  observationPhase : SessionObservationPhase
  decision : GateDecision
  failure : Option (FluidNCFailure p.ucd)

/-- The checks of the outcome of the first look at the controller. -/
def PreflightOutcome.Fields.postInit (o : PreflightOutcome.Fields p) : Except PortError Unit := do
  checkEpoch o.machineSessionEpoch
  checkSessionEvidence o.evidence
  refuseIf (o.observationPhase = .actionAdmitted)
    "initial preflight outcome must use fresh or stabilized observation"
  let decision ← PortError.raising
    (classifySessionObservation p o.evidence o.snapshot.status o.observationPhase)
  refuseIf (o.decision ≠ decision) "preflight decision contradicts its reset evidence"
  refuseIf (o.observationPhase = .freshStabilization ∧ FluidNCFailure.isReset o.failure = true)
    "fresh-session reset evidence is an expected unhomed observation, not a reset failure"
  refuseIf (o.observationPhase = .stabilized ∧
      (o.decision.disposition ≠ .recoveryRequired ∨ FluidNCFailure.isReset o.failure = false))
    "stabilized preflight evidence requires an exact controller-reset failure"

/-- An outcome of the first look at the controller. -/
abbrev PreflightOutcome := { o : PreflightOutcome.Fields p // o.postInit = .ok () }

end

end DrawingMachine
