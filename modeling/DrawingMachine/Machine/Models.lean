import Mathlib.Data.Rat.Init
import DrawingMachine.Machine.Phases

/-!
# The values of a machine execution

The records of a machine execution and of the evidence it carries. Each record comes
with the checks its constructor makes, in their order, and the type of constructed
values is the subtype of the records that pass them: a value that fails a check
cannot be built. Replacing fields of a value is building a new one.

An instant is a number of microseconds, and a coordinate is a rational number.
-/

namespace DrawingMachine

/-- An instant of the wall clock, in microseconds. -/
abbrev Timestamp := Int

/-- A position of the three axes. -/
structure Vector3 where
  x : ℚ
  y : ℚ
  z : ℚ
  deriving DecidableEq, Repr

/-- The check of a schema version: a positive number, and the supported one, which is 1. -/
def checkSchemaVersion (value : Nat) (field : String) (unsupported : ErrorPayload) :
    Except ErrorPayload Unit := do
  checkInteger value field 1
  rejectIf (value ≠ 1) unsupported

/-- A schema version passes exactly when it is the supported one. -/
@[simp] theorem checkSchemaVersion_eq_ok_iff {value : Nat} {field : String} {e : ErrorPayload} :
  checkSchemaVersion value field e = .ok () ↔ value = 1
  := by
  simp only [checkSchemaVersion, Except.unit_bind_eq_ok_iff, checkInteger_eq_ok_iff,
    rejectIf_eq_ok_iff]
  omega

/-! ### Failure evidence -/

/-- What is known about a failure. -/
structure MachineFailureEvidenceV1.Fields where
  schemaVersion : Nat
  code : String
  message : String
  controllerState : Option String
  sideEffectPossible : Bool
  deriving DecidableEq, Repr

/-- The checks of failure evidence. -/
def MachineFailureEvidenceV1.Fields.postInit (f : MachineFailureEvidenceV1.Fields) :
    Except ErrorPayload Unit := do
  checkSchemaVersion f.schemaVersion "failure.schema_version"
    (invalidField "failure schema version is unsupported" "failure.schema_version")
  checkString f.code "failure.code"
  checkString f.message "failure.message"
  checkNullableString f.controllerState "failure.controller_state"

/-- Failure evidence. -/
abbrev MachineFailureEvidenceV1 :=
  { f : MachineFailureEvidenceV1.Fields // f.postInit = .ok () }

/-! ### Session snapshots -/

/-- What the controller reported in a session. -/
structure MachineSessionSnapshot.Fields where
  schemaVersion : Nat
  executionId : String
  machineSessionEpoch : String
  controllerState : String
  mpos : Vector3
  wpos : Vector3
  wco : Vector3
  g54 : Vector3
  stabilized : Bool
  observedAt : Timestamp
  deriving DecidableEq, Repr

/-- The checks of a session snapshot. -/
def MachineSessionSnapshot.Fields.postInit (s : MachineSessionSnapshot.Fields) :
    Except ErrorPayload Unit := do
  checkSchemaVersion s.schemaVersion "session.schema_version"
    (invalidField "session schema version is unsupported" "session.schema_version")
  checkString s.executionId "session.execution_id"
  checkString s.machineSessionEpoch "session.machine_session_epoch"
  checkString s.controllerState "session.controller_state"

/-- A session snapshot. -/
abbrev MachineSessionSnapshot :=
  { s : MachineSessionSnapshot.Fields // s.postInit = .ok () }

/-! ### Motion evidence -/

/-- How a motion came to need recovery. -/
inductive MachineMotionEvidenceKind where
  | preconditionRejected | typedFailure | invalidOutcome | postconditionRejected
  | adapterUncertain | commitUncertain | closeUncertain
  deriving DecidableEq, Repr

/-- The last step of a motion that is known of. -/
inductive MachineMotionStep where
  | unknown | actionAdmitted
  | homeDispatch | homeAcknowledged | homeIdle | homePostcondition
  | zcalMetric | zcalMetricAcknowledged
  | zcalAbsolute | zcalAbsoluteAcknowledged
  | zcalWorkCoordinate | zcalWorkCoordinateAcknowledged
  | zcalPenUp | zcalPenUpAcknowledged
  | zcalCenter | zcalCenterAcknowledged
  | zcalContact | zcalContactAcknowledged
  | zcalPostcondition
  | zconfirmRaise | zconfirmAcknowledged | zconfirmIdle | zconfirmPostcondition
  | sessionClose | commitAfterSideEffect
  deriving DecidableEq, Repr

/-- What is known about a motion that needs recovery. -/
structure MachineMotionRecoveryEvidenceV1.Fields where
  schemaVersion : Nat
  executionId : String
  action : MachineAction
  kind : MachineMotionEvidenceKind
  lastStep : MachineMotionStep
  acknowledgedSteps : Option Nat
  expectedMachineSessionEpoch : String
  observedMachineSessionEpoch : Option String
  snapshot : Option MachineSessionSnapshot
  postconditionProven : Bool
  deriving DecidableEq, Repr

/-- The number of controller steps of a motion. -/
def maximumSteps : MachineAction → Nat
  | .zcal => 6
  | _ => 1

/-- The steps of a calibration as they are attempted. -/
def zcalAttemptedSteps : List MachineMotionStep :=
  [.zcalMetric, .zcalAbsolute, .zcalWorkCoordinate, .zcalPenUp, .zcalCenter, .zcalContact]

/-- The steps of a calibration as they are acknowledged. -/
def zcalAcknowledgedSteps : List MachineMotionStep :=
  [.zcalMetricAcknowledged, .zcalAbsoluteAcknowledged, .zcalWorkCoordinateAcknowledged,
    .zcalPenUpAcknowledged, .zcalCenterAcknowledged, .zcalContactAcknowledged]

/-- Whether a step of a calibration agrees with the number of acknowledged steps. -/
def zcalStepValid (acknowledged : Nat) (step : MachineMotionStep) : Bool :=
  if acknowledged = 6 then
    step = .zcalContactAcknowledged ∨ step = .zcalPostcondition
  else
    (acknowledged < 6 ∧ zcalAttemptedSteps[acknowledged]? = some step) ∨
      (0 < acknowledged ∧ zcalAcknowledgedSteps[acknowledged - 1]? = some step)

/-- Whether a step of a single-command motion agrees with the number of acknowledged
steps: nothing but the dispatch before the acknowledgement, then the acknowledgement or
the observed idle state. -/
def singleStepValid (dispatch acknowledgedStep idle : MachineMotionStep) (acknowledged : Nat)
    (step : MachineMotionStep) : Bool :=
  (acknowledged = 0 ∧ step = dispatch) ∨
    (acknowledged = 1 ∧ (step = acknowledgedStep ∨ step = idle))

/-- The step at which the postcondition of a motion is checked. -/
def motionPostconditionStep : MachineAction → MachineMotionStep
  | .home => .homePostcondition
  | .zcal => .zcalPostcondition
  | _ => .zconfirmPostcondition

namespace MachineMotionRecoveryEvidenceV1.Fields

variable (m : MachineMotionRecoveryEvidenceV1.Fields)

/-- Whether the last step of a typed failure agrees with its acknowledged steps. -/
def typedStepValid : Bool :=
  match m.acknowledgedSteps, m.action with
  | none, _ => false
  | some n, .zcal => zcalStepValid n m.lastStep
  | some n, .home => singleStepValid .homeDispatch .homeAcknowledged .homeIdle n m.lastStep
  | some n, _ =>
      singleStepValid .zconfirmRaise .zconfirmAcknowledged .zconfirmIdle n m.lastStep

/-- Whether the fields of the evidence agree with its kind. -/
def kindValid : Bool :=
  match m.kind with
  | .preconditionRejected =>
      m.acknowledgedSteps = some 0 ∧ m.lastStep = .actionAdmitted ∧ m.snapshot = none ∧
        m.observedMachineSessionEpoch = none ∧ m.postconditionProven = false
  | .adapterUncertain =>
      m.acknowledgedSteps = none ∧ m.lastStep = .unknown ∧ m.snapshot = none ∧
        m.observedMachineSessionEpoch = none ∧ m.postconditionProven = false
  | .invalidOutcome =>
      m.acknowledgedSteps = none ∧ m.lastStep = .unknown ∧ m.snapshot = none ∧
        m.postconditionProven = false
  | .typedFailure =>
      m.observedMachineSessionEpoch = some m.expectedMachineSessionEpoch ∧
        m.postconditionProven = false ∧ m.typedStepValid = true
  | .postconditionRejected =>
      m.acknowledgedSteps = some (maximumSteps m.action) ∧
        m.lastStep = motionPostconditionStep m.action ∧ m.snapshot ≠ none ∧
        m.observedMachineSessionEpoch = some m.expectedMachineSessionEpoch ∧
        m.postconditionProven = false
  | .commitUncertain =>
      m.acknowledgedSteps = some (maximumSteps m.action) ∧
        m.lastStep = .commitAfterSideEffect ∧ m.snapshot ≠ none ∧
        m.observedMachineSessionEpoch = some m.expectedMachineSessionEpoch ∧
        m.postconditionProven = true
  | .closeUncertain =>
      m.action = .home ∧ m.acknowledgedSteps = some 1 ∧ m.lastStep = .sessionClose ∧
        m.snapshot ≠ none ∧
        m.observedMachineSessionEpoch = some m.expectedMachineSessionEpoch ∧
        m.postconditionProven = true

/-- Whether a claimed proof of the postcondition is backed by a stable idle snapshot of
the expected session. -/
def proofBacked : Bool :=
  m.postconditionProven = false ∨
    (m.observedMachineSessionEpoch = some m.expectedMachineSessionEpoch ∧
      (m.snapshot.any fun s => s.val.controllerState = "Idle" ∧ s.val.stabilized = true) = true)

/-- The check of the fields of the evidence against each other. -/
def validateMotionCrossProduct : Except ErrorPayload Unit :=
  rejectIf (¬ (m.kindValid = true ∧ m.proofBacked = true))
    (invalid "motion evidence fields do not form an exact closed action state")

/-- The check of the snapshot of the evidence. -/
def checkSnapshot : Except ErrorPayload Unit :=
  checkSome m.snapshot fun s => do
    rejectIf (s.val.executionId ≠ m.executionId)
      (invalid "motion snapshot must match the motion execution authority")
    rejectIf (some s.val.machineSessionEpoch ≠ m.observedMachineSessionEpoch)
      (invalid "motion snapshot must match the observed motion session epoch")

/-- The checks of motion evidence. -/
def postInit : Except ErrorPayload Unit := do
  checkSchemaVersion m.schemaVersion "motion.schema_version"
    (invalidField "motion evidence schema version is unsupported" "motion.schema_version")
  checkString m.executionId "motion.execution_id"
  rejectIf (m.action ∉ [MachineAction.home, .zcal, .zconfirm])
    (invalidField "motion evidence action must be HOME, ZCAL, or ZCONFIRM" "motion.action")
  checkSome m.acknowledgedSteps fun n =>
    rejectIf (maximumSteps m.action < n)
      (invalid "motion acknowledged step count exceeds the closed action sequence")
  checkString m.expectedMachineSessionEpoch "motion.expected_machine_session_epoch"
  checkNullableString m.observedMachineSessionEpoch "motion.observed_machine_session_epoch"
  m.checkSnapshot
  m.validateMotionCrossProduct

end MachineMotionRecoveryEvidenceV1.Fields

/-- Motion evidence. -/
abbrev MachineMotionRecoveryEvidenceV1 :=
  { m : MachineMotionRecoveryEvidenceV1.Fields // m.postInit = .ok () }

/-! ### Recovery evidence -/

/-- Why an execution needs recovery. -/
structure MachineRecoveryEvidence.Fields where
  schemaVersion : Nat
  executionId : String
  recoveryIntent : RecoveryIntent
  streamMilestone : StreamMilestone
  reasonCode : String
  failure : MachineFailureEvidenceV1
  occurredAt : Timestamp
  motion : Option MachineMotionRecoveryEvidenceV1
  deriving DecidableEq, Repr

/-- The snapshot of the motion evidence, if there is one. -/
def MachineRecoveryEvidence.Fields.motionSnapshot (r : MachineRecoveryEvidence.Fields) :
    Option MachineSessionSnapshot :=
  r.motion.bind fun m => m.val.snapshot

/-- The checks of recovery evidence. -/
def MachineRecoveryEvidence.Fields.postInit (r : MachineRecoveryEvidence.Fields) :
    Except ErrorPayload Unit := do
  checkSchemaVersion r.schemaVersion "recovery.schema_version"
    (invalidField "recovery schema version is unsupported" "recovery.schema_version")
  checkString r.executionId "recovery.execution_id"
  checkString r.reasonCode "recovery.reason_code"
  checkSome r.motion fun m => do
    rejectIf (m.val.executionId ≠ r.executionId)
      (invalid "recovery motion evidence must match the outer execution authority")
    checkSome m.val.snapshot fun s =>
      rejectIf (r.occurredAt < s.val.observedAt)
        (invalid "motion snapshot must not occur after its recovery evidence")
  rejectIf (recoveryIntentForMilestone r.streamMilestone ≠ r.recoveryIntent)
    (invalid "recovery intent must match the irreversible stream milestone")

/-- Recovery evidence. -/
abbrev MachineRecoveryEvidence :=
  { r : MachineRecoveryEvidence.Fields // r.postInit = .ok () }

/-! ### Retirement -/

/-- How and when an execution stopped owning the machine. -/
structure OwnerRetirementEvidence.Fields where
  predecessorExecutionId : String
  disposition : RetirementDisposition
  retiredAt : Timestamp
  successorExecutionId : Option String
  deriving DecidableEq, Repr

/-- The checks of retirement evidence. -/
def OwnerRetirementEvidence.Fields.postInit (r : OwnerRetirementEvidence.Fields) :
    Except ErrorPayload Unit := do
  checkString r.predecessorExecutionId "retirement.predecessor_execution_id"
  checkNullableString r.successorExecutionId "retirement.successor_execution_id"
  rejectIf (¬ (r.successorExecutionId.isSome = true ↔ r.disposition = .transferred))
    (invalid "only transferred retirement carries one successor execution ID")
  rejectIf (r.successorExecutionId = some r.predecessorExecutionId)
    (invalid "ownership cannot transfer to the predecessor itself")

/-- Retirement evidence. -/
abbrev OwnerRetirementEvidence :=
  { r : OwnerRetirementEvidence.Fields // r.postInit = .ok () }

end DrawingMachine
