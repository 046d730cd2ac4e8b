import DrawingMachine.Application.Admission
import DrawingMachine.Fluidnc.Outcomes

/-!
# Evidence of a motion that needs recovery

When a homing, a calibration or a confirmation fails, the execution chain records what is
known about it: the failure, and the evidence of the motion. The evidence is made from the
outcome of the adapter, if it gave one, and from the exception that was raised, if there
was one. Its constructor accepts only combinations of its fields that belong together.
-/

namespace DrawingMachine

/-! ### Snapshots of a session -/

section

variable (p : Platform)

/-- The three positions of a snapshot: those it reports, and those that follow from them.
A report has the machine position or the work position, and the offset between them only
now and then; the offset of the work coordinates stands in for it. -/
def completedPositions (float : FloatArithmetic) (snapshot : PreflightSnapshot) :
    Option Axes × Option Axes × Option Axes :=
  let status := snapshot.status
  let wco := status.wco.or snapshot.g54
  match wco, status.mpos, status.wpos with
  | some offset, some mpos, none =>
      (some mpos, some (FloatArithmetic.combine float.roundedDifference mpos offset), wco)
  | some offset, none, some wpos =>
      (some (FloatArithmetic.combine float.roundedSum wpos offset), some wpos, wco)
  | _, mpos, wpos => (mpos, wpos, wco)

/-- The check of a number: it is finite. -/
def checkFinite (value : Reading) (field : String) : Except ErrorPayload ℚ :=
  match value with
  | some q => .ok q
  | none => .error (invalidField (field ++ " must be finite") field)

/-- The check of a position: all of its numbers are finite. -/
def checkPosition (value : Axes) (field : String) : Except ErrorPayload Vector3 := do
  return ⟨← checkFinite value.x (field ++ ".x"), ← checkFinite value.y (field ++ ".y"),
    ← checkFinite value.z (field ++ ".z")⟩

/-- Build a session snapshot from reported positions. -/
def MachineSessionSnapshot.ofReadings (executionId machineSessionEpoch controllerState : String)
    (mpos wpos wco g54 : Axes) (observedAt : Timestamp) :
    Except ErrorPayload MachineSessionSnapshot := do
  checkString executionId "session.execution_id"
  checkString machineSessionEpoch "session.machine_session_epoch"
  checkString controllerState "session.controller_state"
  let mpos ← checkPosition mpos "session.mpos"
  let wpos ← checkPosition wpos "session.wpos"
  let wco ← checkPosition wco "session.wco"
  let g54 ← checkPosition g54 "session.g54"
  acceptIf MachineSessionSnapshot.Fields.postInit {
    schemaVersion := 1
    executionId := executionId
    machineSessionEpoch := machineSessionEpoch
    controllerState := controllerState
    mpos := mpos
    wpos := wpos
    wco := wco
    g54 := g54
    stabilized := true
    observedAt := observedAt }

/-! ### Outcomes of motions -/

/-- The outcome of a motion. -/
inductive MotionOutcome where
  | home (o : HomeOutcome p)
  | zcal (o : ZCalibrationOutcome p)
  | zconfirm (o : ZConfirmationOutcome p)

namespace MotionOutcome

variable {p}

/-- The action an outcome is of. -/
def action : MotionOutcome p → MachineAction
  | .home _ => .home
  | .zcal _ => .zcal
  | .zconfirm _ => .zconfirm

/-- The session an outcome was observed in. -/
def machineSessionEpoch : MotionOutcome p → String
  | .home o => o.val.machineSessionEpoch
  | .zcal o => o.val.machineSessionEpoch
  | .zconfirm o => o.val.machineSessionEpoch

/-- The snapshot of an outcome. -/
def snapshot : MotionOutcome p → Option PreflightSnapshot
  | .home o => o.val.snapshot
  | .zcal o => o.val.snapshot
  | .zconfirm o => o.val.snapshot

/-- The failure of an outcome. -/
def failure : MotionOutcome p → Option (FluidNCFailure p.ucd)
  | .home o => o.val.failure
  | .zcal o => o.val.failure
  | .zconfirm o => o.val.failure

end MotionOutcome

/-- The session snapshot of an outcome, when its snapshot has all positions. -/
def motionSessionSnapshot (execution : MachineExecution) (outcome : MotionOutcome p)
    (observedAt : Timestamp) : Except ErrorPayload (Option MachineSessionSnapshot) :=
  match outcome.snapshot with
  | none => .ok none
  | some source =>
      match completedPositions p.float source, source.g54 with
      | (some mpos, some wpos, some wco), some g54 =>
          some <$> MachineSessionSnapshot.ofReadings execution.val.executionId
            outcome.machineSessionEpoch source.status.stateText mpos wpos wco g54 observedAt
      | _, _ => .ok none

/-- The last step of a calibration at the given stage. -/
def zcalMotionStep : ZCalibrationOutcomeStage → MachineMotionStep
  | .metricAttempted => .zcalMetric
  | .metricAcknowledged => .zcalMetricAcknowledged
  | .absoluteAttempted => .zcalAbsolute
  | .absoluteAcknowledged => .zcalAbsoluteAcknowledged
  | .workCoordinateAttempted => .zcalWorkCoordinate
  | .workCoordinateAcknowledged => .zcalWorkCoordinateAcknowledged
  | .penUpAttempted => .zcalPenUp
  | .penUpAcknowledged => .zcalPenUpAcknowledged
  | .centerAttempted => .zcalCenter
  | .centerAcknowledged => .zcalCenterAcknowledged
  | .contactAttempted => .zcalContact
  | .contactAcknowledged => .zcalContactAcknowledged
  | .postcondition => .zcalPostcondition

/-- The last step of a single command at the given stage. -/
def singleMotionStep (dispatch acknowledged idle postcondition : MachineMotionStep) :
    SingleCommandOutcomeStage → MachineMotionStep
  | .dispatchAttempted => dispatch
  | .commandAcknowledged => acknowledged
  | .idleObserved => idle
  | .postconditionProven => postcondition

/-- The number of acknowledged steps of an outcome, and its last step. The outcome of a
single command asserts that it is of the action. -/
def typedMotionProgress (action : MachineAction) :
    MotionOutcome p → Except Raised (Nat × MachineMotionStep)
  | .zcal o => .ok (o.val.acknowledgedSteps, zcalMotionStep o.val.stage)
  | .home o => do
      rejectIf (action ≠ .home) Raised.other
      return (o.val.acknowledgedSteps, singleMotionStep .homeDispatch .homeAcknowledged .homeIdle
        .homePostcondition o.val.stage)
  | .zconfirm o => do
      rejectIf (action ≠ .zconfirm) Raised.other
      return (o.val.acknowledgedSteps, singleMotionStep .zconfirmRaise .zconfirmAcknowledged
        .zconfirmIdle .zconfirmPostcondition o.val.stage)

/-- Whether a failure says that the motion of the given action did not end where it
should. -/
def isExactMotionProofFailure (action : MachineAction) (outcome : MotionOutcome p)
    (failure : FluidNCFailure p.ucd) : Bool :=
  match action, outcome with
  | .home, .home o =>
      failure.val.code = "POST_HOME_PROOF_FAILED" && o.val.stage = .idleObserved
  | .zcal, .zcal o =>
      failure.val.code = "POST_ZCAL_PROOF_FAILED" && o.val.stage = .postcondition
  | .zconfirm, .zconfirm o =>
      failure.val.code = "POST_ZCONFIRM_PROOF_FAILED" && o.val.stage = .idleObserved
  | _, _ => false

/-- Whether a failure with a reserved code is one of the given action. -/
def reservedMotionProofAuthorityIsValid (action : MachineAction) (outcome : MotionOutcome p) :
    Bool :=
  match outcome.failure with
  | none => true
  | some f => f.val.code ∉ reservedMotionProofFailureCodes ||
      isExactMotionProofFailure p action outcome f

/-! ### The kinds of exceptions -/

/-- The code of an exception that is an error of the program. -/
def Raised.code? : Option Raised → Option String
  | some (.error e) => some e.code
  | _ => none

/-- The code of an action that was not dispatched. -/
def isPreconditionCode (code : String) : Bool :=
  code = "SESSION_OWNERSHIP_UNCERTAIN" || code = "MOTION_PRECONDITION_UNSAFE"

/-- The code of an outcome that was not accepted. -/
def isInvalidOutcomeCode (code : String) : Bool :=
  "_OUTCOME_INVALID".toList.isSuffixOf code.toList ||
    code = "MOTION_OUTCOME_EPOCH_MISMATCH" || code = "MOTION_POSTCONDITION_INVALID"

/-- The code of a session that was not closed. -/
def isCloseCode (code : String) : Bool :=
  containsText code "CLOSE" || code = "SAFE_HOME_CLOSE_UNCERTAIN"

/-- The kind of evidence that an exception makes. -/
def exceptionKind (code : Option String) (hasOutcome : Bool) : MachineMotionEvidenceKind :=
  if code.any isPreconditionCode then .preconditionRejected
  else if code.any isInvalidOutcomeCode then .invalidOutcome
  else if code.any isCloseCode then .closeUncertain
  else if hasOutcome then .commitUncertain
  else .adapterUncertain

/-- The evidence of the given kind, before its check. -/
def exceptionEvidence (execution : MachineExecution) (action : MachineAction)
    (kind : MachineMotionEvidenceKind) (observedEpoch : Option String)
    (snapshot : Option MachineSessionSnapshot) : MachineMotionRecoveryEvidenceV1.Fields :=
  let unknown : MachineMotionRecoveryEvidenceV1.Fields := {
    schemaVersion := 1
    executionId := execution.val.executionId
    action := action
    kind := kind
    lastStep := .unknown
    acknowledgedSteps := none
    expectedMachineSessionEpoch := execution.val.machineSessionEpoch
    observedMachineSessionEpoch := observedEpoch
    snapshot := snapshot
    postconditionProven := false }
  match kind with
  | .preconditionRejected =>
      { unknown with
        lastStep := .actionAdmitted
        acknowledgedSteps := some 0
        observedMachineSessionEpoch := none
        snapshot := none }
  | .invalidOutcome => { unknown with snapshot := none }
  | .closeUncertain =>
      { unknown with
        lastStep := .sessionClose
        acknowledgedSteps := some (maximumSteps action)
        postconditionProven := snapshot.isSome }
  | .commitUncertain =>
      { unknown with
        lastStep := .commitAfterSideEffect
        acknowledgedSteps := some (maximumSteps action)
        postconditionProven := snapshot.any fun s => s.val.controllerState = "Idle" }
  | _ => unknown

/-- The failure that an exception is recorded as. -/
def exceptionFailure (action : MachineAction) : Option Raised → MachineFailureEvidenceV1.Fields
  | some (.error e) => ⟨1, e.code, e.message, none, true⟩
  | _ => ⟨1, action.value ++ "_AMBIGUOUS", action.value ++ " adapter dispatch or durable outcome " ++
      "commit failed with sanitized ambiguous evidence", none, true⟩

/-! ### The evidence -/

/-- The failure and the evidence of a motion. -/
abbrev MotionRecoveryDetails := MachineFailureEvidenceV1 × MachineMotionRecoveryEvidenceV1

/-- Build the failure and the evidence of a motion. -/
def buildDetails (failure : MachineFailureEvidenceV1.Fields)
    (motion : MachineMotionRecoveryEvidenceV1.Fields) : Except Raised MotionRecoveryDetails := do
  let failure ← raising (acceptIf MachineFailureEvidenceV1.Fields.postInit failure)
  let motion ← raising (acceptIf MachineMotionRecoveryEvidenceV1.Fields.postInit motion)
  return (failure, motion)

/-- The evidence of an outcome with a failure. -/
def typedFailureDetails (execution : MachineExecution) (action : MachineAction)
    (outcome : MotionOutcome p) (failure : FluidNCFailure p.ucd)
    (snapshot : Option MachineSessionSnapshot) : Except Raised MotionRecoveryDetails := do
  let progress ← typedMotionProgress p action outcome
  let postconditionFailure := snapshot.isSome && isExactMotionProofFailure p action outcome failure
  buildDetails
    ⟨1, failure.val.code, failure.val.message, outcome.snapshot.map fun s => s.status.stateText,
      failure.val.sideEffectMayHaveOccurred⟩
    { schemaVersion := 1
      executionId := execution.val.executionId
      action := action
      kind := if postconditionFailure then .postconditionRejected else .typedFailure
      lastStep := if postconditionFailure then motionPostconditionStep action else progress.2
      acknowledgedSteps := some progress.1
      expectedMachineSessionEpoch := execution.val.machineSessionEpoch
      observedMachineSessionEpoch := some outcome.machineSessionEpoch
      snapshot := snapshot
      postconditionProven := false }

/-- The session snapshot of an outcome, if there is one. -/
def observedSnapshot (execution : MachineExecution) (outcome : Option (MotionOutcome p))
    (observedAt : Timestamp) : Except ErrorPayload (Option MachineSessionSnapshot) :=
  match outcome with
  | none => .ok none
  | some o => motionSessionSnapshot p execution o observedAt

/-- The failure and the evidence that are recorded for a motion: by its outcome if that
has a failure, and else by the exception. -/
def motionRecoveryDetails (execution : MachineExecution) (action : MachineAction)
    (outcome : Option (MotionOutcome p)) (exception : Option Raised) (observedAt : Timestamp) :
    Except Raised MotionRecoveryDetails := do
  let snapshot ← raising (observedSnapshot p execution outcome observedAt)
  rejectIf (action ∉ [MachineAction.home, .zcal, .zconfirm]) Raised.other
  match outcome, outcome.bind MotionOutcome.failure with
  | some o, some failure => typedFailureDetails p execution action o failure snapshot
  | _, _ =>
      buildDetails (exceptionFailure action exception)
        (exceptionEvidence execution action
          (exceptionKind (Raised.code? exception) outcome.isSome)
          (outcome.map MotionOutcome.machineSessionEpoch) snapshot)

/-! ### Texts of failures and epochs -/

/-- A text of characters that are not control characters is plain. -/
theorem plainText_of_forall {s : String} (hne : s.toList ≠ [])
    (h : ∀ c ∈ s.toList, 32 ≤ c.toNat ∧ c.toNat ≠ 127) :
  PlainText s
  := by
  constructor
  · rintro rfl
    exact hne rfl
  · intro c hc hcontrol
    have := h c hc
    omega

/-- A canonical UUID is a plain text. -/
theorem CanonicalUuid.plainText {s : String} (h : CanonicalUuid s) : PlainText s := by
  obtain ⟨hlength, hchars⟩ := h
  apply plainText_of_forall
  · intro hnil
    rw [hnil] at hlength
    cases hlength
  · intro c hc
    obtain ⟨i, hi, rfl⟩ := List.mem_iff_getElem.mp hc
    have hmem : (s.toList[i], i) ∈ s.toList.zipIdx := by
      apply List.mk_mem_zipIdx_iff_getElem?.mpr
      apply List.getElem?_eq_getElem
    have hchar := hchars _ hmem
    have hd : '-'.toNat = 45 := by rfl
    have h0 : '0'.toNat = 48 := by rfl
    have h9 : '9'.toNat = 57 := by rfl
    have ha : 'a'.toNat = 97 := by rfl
    have hf : 'f'.toNat = 102 := by rfl
    split at hchar
    · rw [show s.toList[i] = '-' from hchar]
      omega
    · simp only [isAsciiDigit, Bool.and_eq_true, decide_eq_true_eq] at hchar
      omega

/-- A code is a plain text. -/
theorem SafeText.plainText {code : String} (h : SafeText code) : PlainText code := by
  obtain ⟨-, hc, hchars⟩ := h
  apply plainText_of_forall
  · intro hnil
    rw [hnil] at hc
    cases hc
  · intro c hc
    have hu : '_'.toNat = 95 := by rfl
    have h0 : '0'.toNat = 48 := by rfl
    have h9 : '9'.toNat = 57 := by rfl
    have hA : 'A'.toNat = 65 := by rfl
    have hZ : 'Z'.toNat = 90 := by rfl
    rcases hchars c hc with h | h | rfl
    · omega
    · omega
    · omega

/-- A control character is forbidden in a line. -/
theorem forbiddenLineCharacter_of_control {ucd : UnicodeData} {c : Char}
    (h : c.toNat < 32 ∨ c.toNat = 127) :
  forbiddenLineCharacter ucd c = true
  := by
  have hcategory : ucd.category c = "Cc" := by
    apply ucd.category_control
    omega
  rw [forbiddenLineCharacter, hcategory]
  decide

/-- The code and the message of a failure are plain texts. -/
theorem FluidNCFailure.plainText {ucd : UnicodeData} (f : FluidNCFailure ucd) :
  PlainText f.val.code ∧ PlainText f.val.message
  := by
  have h := f.property
  simp only [FluidNCFailure.Fields.postInit, Except.unit_bind_eq_ok_iff, refuseIf_eq_ok_iff,
    not_not, not_or, not_exists, not_and] at h
  obtain ⟨hcode, hmessage, ⟨-, hchars⟩, -⟩ := h
  refine ⟨hcode.plainText, hmessage, ?_⟩
  intro c hc hcontrol
  exact hchars c hc (forbiddenLineCharacter_of_control hcontrol)

namespace MotionOutcome

variable {p}

/-- The epoch of an outcome is a plain text. -/
theorem plainText_machineSessionEpoch (o : MotionOutcome p) : PlainText o.machineSessionEpoch := by
  cases o with
  | home o =>
      have h := o.property
      simp only [HomeOutcome.Fields.postInit, checkEpoch, Except.unit_bind_eq_ok_iff,
        refuseIf_eq_ok_iff, not_not] at h
      exact h.1.plainText
  | zcal o =>
      have h := o.property
      simp only [ZCalibrationOutcome.Fields.postInit, checkEpoch, Except.unit_bind_eq_ok_iff,
        refuseIf_eq_ok_iff, not_not] at h
      exact h.1.plainText
  | zconfirm o =>
      have h := o.property
      simp only [ZConfirmationOutcome.Fields.postInit, checkEpoch, Except.unit_bind_eq_ok_iff,
        refuseIf_eq_ok_iff, not_not] at h
      exact h.1.plainText

end MotionOutcome

/-! ### What a snapshot shows -/

/-- A position all of whose numbers are finite. -/
def Axes.Finite (a : Axes) : Prop := a.x ≠ none ∧ a.y ≠ none ∧ a.z ≠ none

/-- A position is accepted exactly when it is finite. -/
theorem checkPosition_isOk_iff {a : Axes} {field : String} :
  (∃ v, checkPosition a field = .ok v) ↔ a.Finite
  := by
  obtain ⟨x, y, z⟩ := a
  cases x with
  | none => simp [checkPosition, checkFinite, Axes.Finite, Except.bind_eq_ok_iff]
  | some x =>
      cases y with
      | none => simp [checkPosition, checkFinite, Axes.Finite, Except.bind_eq_ok_iff]
      | some y =>
          cases z with
          | none => simp [checkPosition, checkFinite, Axes.Finite, Except.bind_eq_ok_iff]
          | some z => simp [checkPosition, checkFinite, Axes.Finite, Except.bind_eq_ok_iff]

/-- The positions of a snapshot that has all of them. -/
def PreflightSnapshot.HasPositions (float : FloatArithmetic) (s : PreflightSnapshot)
    (mpos wpos wco g54 : Axes) : Prop :=
  completedPositions float s = (some mpos, some wpos, some wco) ∧ s.g54 = some g54

/-- A snapshot that has all positions. -/
def PreflightSnapshot.Complete (float : FloatArithmetic) (s : PreflightSnapshot) : Prop :=
  ∃ mpos wpos wco g54, s.HasPositions float mpos wpos wco g54

/-- A snapshot whose state is a plain text and whose positions are finite, if it has all of
them. -/
def PreflightSnapshot.Readable (float : FloatArithmetic) (s : PreflightSnapshot) : Prop :=
  ∀ mpos wpos wco g54, s.HasPositions float mpos wpos wco g54 →
    PlainText s.status.stateText ∧ mpos.Finite ∧ wpos.Finite ∧ wco.Finite ∧ g54.Finite

/-- What the session snapshot of an outcome repeats. -/
structure ObservedAs (execution : MachineExecution) (outcome : MotionOutcome p)
    (source : PreflightSnapshot) (s : MachineSessionSnapshot) : Prop where
  executionId : s.val.executionId = execution.val.executionId
  machineSessionEpoch : s.val.machineSessionEpoch = outcome.machineSessionEpoch
  controllerState : s.val.controllerState = source.status.stateText
  stabilized : s.val.stabilized = true

variable {p}

/-- The plain fields of an execution that its evidence repeats. -/
theorem MachineExecution.plainText_authority (e : MachineExecution) :
  PlainText e.val.executionId ∧ PlainText e.val.machineSessionEpoch
  := by
  have h := (MachineExecution.Fields.postInit_eq_ok_iff.mp e.property).1
  simp only [MachineExecution.Fields.checkFields, Except.unit_bind_eq_ok_iff,
    checkString_eq_ok_iff] at h
  exact ⟨h.2.1, h.2.2.2.2.2.1⟩

/-- A session snapshot is built exactly from a plain state and finite positions. -/
theorem MachineSessionSnapshot.ofReadings_isOk_iff {executionId epoch state : String}
    {mpos wpos wco g54 : Axes} {observedAt : Timestamp} (hid : PlainText executionId)
    (hepoch : PlainText epoch) :
  (∃ s, ofReadings executionId epoch state mpos wpos wco g54 observedAt = .ok s) ↔
    PlainText state ∧ mpos.Finite ∧ wpos.Finite ∧ wco.Finite ∧ g54.Finite
  := by
  simp only [ofReadings, Except.bind_eq_ok_iff, Except.exists_unit_iff, checkString_eq_ok_iff]
  constructor
  · rintro ⟨s, -, -, hstate, m, hm, w, hw, c, hc, g, hg, -⟩
    exact ⟨hstate, checkPosition_isOk_iff.mp ⟨m, hm⟩, checkPosition_isOk_iff.mp ⟨w, hw⟩,
      checkPosition_isOk_iff.mp ⟨c, hc⟩, checkPosition_isOk_iff.mp ⟨g, hg⟩⟩
  · rintro ⟨hstate, hm, hw, hc, hg⟩
    obtain ⟨m, hm⟩ := checkPosition_isOk_iff.mpr hm
    obtain ⟨w, hw⟩ := checkPosition_isOk_iff.mpr hw
    obtain ⟨c, hc⟩ := checkPosition_isOk_iff.mpr hc
    obtain ⟨g, hg⟩ := checkPosition_isOk_iff.mpr hg
    have hpost : MachineSessionSnapshot.Fields.postInit
        ⟨1, executionId, epoch, state, m, w, c, g, true, observedAt⟩ = .ok () := by
      simp [MachineSessionSnapshot.Fields.postInit, hid, hepoch, hstate]
    obtain ⟨s, hs⟩ := acceptIf_isOk_iff.mpr hpost
    exact ⟨s, hid, hepoch, hstate, m, hm, w, hw, c, hc, g, hg, hs⟩

/-- A session snapshot repeats what it is built from. -/
theorem MachineSessionSnapshot.of_ofReadings {executionId epoch state : String}
    {mpos wpos wco g54 : Axes} {observedAt : Timestamp} {s : MachineSessionSnapshot}
    (h : ofReadings executionId epoch state mpos wpos wco g54 observedAt = .ok s) :
  s.val.executionId = executionId ∧ s.val.machineSessionEpoch = epoch ∧
    s.val.controllerState = state ∧ s.val.stabilized = true
  := by
  simp only [ofReadings, Except.bind_eq_ok_iff, Except.exists_unit_iff,
    acceptIf_eq_ok_iff] at h
  obtain ⟨-, -, -, m, -, w, -, c, -, g, -, hs⟩ := h
  rw [hs]
  exact ⟨rfl, rfl, rfl, rfl⟩

/-- How the session snapshot of an outcome is made: there is none unless its snapshot has
all positions, and then it is built from them. -/
theorem motionSessionSnapshot_cases (execution : MachineExecution) (o : MotionOutcome p)
    (observedAt : Timestamp) :
  ((∀ source, o.snapshot = some source → ¬ source.Complete p.float) ∧
      motionSessionSnapshot p execution o observedAt = .ok none) ∨
    ∃ source mpos wpos wco g54, o.snapshot = some source ∧
      source.HasPositions p.float mpos wpos wco g54 ∧
      motionSessionSnapshot p execution o observedAt =
        some <$> MachineSessionSnapshot.ofReadings execution.val.executionId
          o.machineSessionEpoch source.status.stateText mpos wpos wco g54 observedAt
  := by
  unfold motionSessionSnapshot
  cases hsource : o.snapshot with
  | none =>
      left
      exact ⟨by simp, rfl⟩
  | some source =>
      by_cases hcomplete : source.Complete p.float
      · right
        obtain ⟨mpos, wpos, wco, g54, hpositions, hg54⟩ := hcomplete
        use source, mpos, wpos, wco, g54, rfl, ⟨hpositions, hg54⟩
        simp only [hpositions, hg54]
      · left
        constructor
        · intro source' h
          cases h
          exact hcomplete
        · dsimp only
          split
          · next mpos wpos wco g54 hpositions hg54 =>
              exact absurd ⟨mpos, wpos, wco, g54, hpositions, hg54⟩ hcomplete
          · rfl

/-- The session snapshot of an outcome is made exactly when its snapshot is readable. -/
theorem motionSessionSnapshot_isOk_iff (execution : MachineExecution) (o : MotionOutcome p)
    (observedAt : Timestamp) :
  (∃ s, motionSessionSnapshot p execution o observedAt = .ok s) ↔
    ∀ source, o.snapshot = some source → source.Readable p.float
  := by
  rcases motionSessionSnapshot_cases execution o observedAt with
    ⟨hincomplete, h⟩ | ⟨source, mpos, wpos, wco, g54, hsource, hpositions, h⟩
  · simp only [h, Except.ok.injEq, exists_eq', true_iff]
    intro source hsource mpos wpos wco g54 hpositions
    exact absurd ⟨mpos, wpos, wco, g54, hpositions⟩ (hincomplete source hsource)
  · have hbuilt : (∃ s, MachineSessionSnapshot.ofReadings execution.val.executionId
        o.machineSessionEpoch source.status.stateText mpos wpos wco g54 observedAt = .ok s) ↔
          PlainText source.status.stateText ∧ mpos.Finite ∧ wpos.Finite ∧ wco.Finite ∧
            g54.Finite :=
      MachineSessionSnapshot.ofReadings_isOk_iff execution.plainText_authority.1
        o.plainText_machineSessionEpoch
    constructor
    · rintro ⟨s, hs⟩ source' hsource' mpos' wpos' wco' g54' hpositions'
      cases hsource.symm.trans hsource'
      cases hpositions.1.symm.trans hpositions'.1
      cases hpositions.2.symm.trans hpositions'.2
      apply hbuilt.mp
      rw [h] at hs
      cases hread : MachineSessionSnapshot.ofReadings execution.val.executionId
          o.machineSessionEpoch source.status.stateText mpos wpos wco g54 observedAt with
      | error e =>
          rw [hread] at hs
          cases hs
      | ok r => exact ⟨r, rfl⟩
    · intro hreadable
      obtain ⟨r, hr⟩ := hbuilt.mpr (hreadable source hsource mpos wpos wco g54 hpositions)
      rw [h, hr]
      exact ⟨some r, rfl⟩

/-- A session snapshot that is made repeats the snapshot, which has all positions. -/
theorem of_motionSessionSnapshot_some {execution : MachineExecution} {o : MotionOutcome p}
    {observedAt : Timestamp} {s : MachineSessionSnapshot}
    (h : motionSessionSnapshot p execution o observedAt = .ok (some s)) :
  ∃ source, o.snapshot = some source ∧ source.Complete p.float ∧ ObservedAs p execution o source s
  := by
  rcases motionSessionSnapshot_cases execution o observedAt with
    ⟨-, hnone⟩ | ⟨source, mpos, wpos, wco, g54, hsource, hpositions, hsome⟩
  · rw [hnone] at h
    cases h
  · use source, hsource, ⟨mpos, wpos, wco, g54, hpositions⟩
    rw [hsome] at h
    cases hread : MachineSessionSnapshot.ofReadings execution.val.executionId
        o.machineSessionEpoch source.status.stateText mpos wpos wco g54 observedAt with
    | error e =>
        rw [hread] at h
        cases h
    | ok r =>
        rw [hread] at h
        cases h
        obtain ⟨hid, hepoch, hstate, hstable⟩ := MachineSessionSnapshot.of_ofReadings hread
        exact ⟨hid, hepoch, hstate, hstable⟩

/-- An outcome without a session snapshot has no snapshot with all positions. -/
theorem of_motionSessionSnapshot_none {execution : MachineExecution} {o : MotionOutcome p}
    {observedAt : Timestamp} (h : motionSessionSnapshot p execution o observedAt = .ok none)
    {source : PreflightSnapshot} (hsource : o.snapshot = some source) :
  ¬ source.Complete p.float
  := by
  rcases motionSessionSnapshot_cases execution o observedAt with
    ⟨hnone, -⟩ | ⟨_, mpos, wpos, wco, g54, -, -, hsome⟩
  · exact hnone source hsource
  · rw [hsome] at h
    cases hread : MachineSessionSnapshot.ofReadings execution.val.executionId
        o.machineSessionEpoch _ mpos wpos wco g54 observedAt with
    | error e =>
        rw [hread] at h
        cases h
    | ok r =>
        rw [hread] at h
        cases h

/-! ### Progress of a failed motion -/

/-- The step of a single command with a failure agrees with its acknowledgement. -/
theorem singleStepValid_of_progress {acknowledged : Nat} {stage : SingleCommandOutcomeStage}
    {snapshot : Option PreflightSnapshot} {failure : FluidNCFailure p.ucd} {proofReady : Bool}
    {code : String}
    (h : validateSingleCommandProgress p acknowledged stage snapshot (some failure) proofReady code
      = .ok ()) (dispatch acked idle postcondition : MachineMotionStep) :
  acknowledged ≤ 1 ∧
    singleStepValid dispatch acked idle acknowledged
      (singleMotionStep dispatch acked idle postcondition stage) = true ∧
    (stage = .idleObserved → acknowledged = 1)
  := by
  simp only [validateSingleCommandProgress, Except.unit_bind_eq_ok_iff, refuseIf_eq_ok_iff,
    not_not] at h
  obtain ⟨hle, rfl, hstage⟩ := h
  refine ⟨not_lt.mp hle, ?_, ?_⟩
  · cases stage with
    | dispatchAttempted => simp [singleStepValid, singleMotionStep, SingleCommandOutcomeStage.acknowledgements]
    | commandAcknowledged => simp [singleStepValid, singleMotionStep, SingleCommandOutcomeStage.acknowledgements]
    | idleObserved => simp [singleStepValid, singleMotionStep, SingleCommandOutcomeStage.acknowledgements]
    | postconditionProven => simp at hstage
  · rintro rfl
    rfl

/-- The step of a calibration agrees with the acknowledged steps when its stage does. -/
theorem zcalStepValid_of_stage {acknowledged : Nat} {stage : ZCalibrationOutcomeStage}
    (h : zcalStageValid acknowledged stage true = true) :
  acknowledged ≤ 6 ∧ zcalStepValid acknowledged (zcalMotionStep stage) = true ∧
    (stage = .postcondition → acknowledged = 6)
  := by
  have hle : acknowledged ≤ 6 := by
    by_contra hgt
    have hlong : acknowledgedStages.length ≤ acknowledged - 1 := by
      have : acknowledgedStages.length = 6 := by rfl
      omega
    have hnot : ¬ acknowledged < 6 := by omega
    have hne : acknowledged ≠ 6 := by omega
    simp [zcalStageValid, hnot, hne, List.getElem?_eq_none hlong] at h
  refine ⟨hle, ?_⟩
  interval_cases acknowledged <;> cases stage <;> revert h <;> decide

/-- The progress of a motion with a failure agrees with its action. -/
theorem MotionOutcome.progress {o : MotionOutcome p} {f : FluidNCFailure p.ucd}
    (h : o.failure = some f) :
  ∃ n step, typedMotionProgress p o.action o = .ok (n, step) ∧ n ≤ maximumSteps o.action ∧
    (∀ m : MachineMotionRecoveryEvidenceV1.Fields, m.action = o.action →
      m.acknowledgedSteps = some n → m.lastStep = step → m.typedStepValid = true) ∧
    (isExactMotionProofFailure p o.action o f = true → n = maximumSteps o.action)
  := by
  cases o with
  | home o =>
      have hpost := o.property
      simp only [HomeOutcome.Fields.postInit, Except.unit_bind_eq_ok_iff] at hpost
      rw [show o.val.failure = some f from h] at hpost
      obtain ⟨hle, hvalid, hidle⟩ := singleStepValid_of_progress hpost.2.2.2 .homeDispatch
        .homeAcknowledged .homeIdle .homePostcondition
      refine ⟨_, _, rfl, hle, ?_, ?_⟩
      · intro m haction hack hstep
        simp [MachineMotionRecoveryEvidenceV1.Fields.typedStepValid, hack, haction, hstep, action,
          hvalid]
      · intro hexact
        simp only [isExactMotionProofFailure, action, Bool.and_eq_true, decide_eq_true_eq] at hexact
        exact hidle hexact.2
  | zcal o =>
      have hpost := o.property
      simp only [ZCalibrationOutcome.Fields.postInit, validateZcalProgress,
        Except.unit_bind_eq_ok_iff, refuseIf_eq_ok_iff] at hpost
      rw [show o.val.failure = some f from h] at hpost
      have hstage := hpost.2.2.2.2.2.2
      simp only [Option.isSome_some, Bool.not_eq_false] at hstage
      obtain ⟨hle, hvalid, hlast⟩ := zcalStepValid_of_stage hstage
      refine ⟨_, _, rfl, hle, ?_, ?_⟩
      · intro m haction hack hstep
        simp [MachineMotionRecoveryEvidenceV1.Fields.typedStepValid, hack, haction, hstep, action,
          hvalid]
      · intro hexact
        simp only [isExactMotionProofFailure, action, Bool.and_eq_true, decide_eq_true_eq] at hexact
        exact hlast hexact.2
  | zconfirm o =>
      have hpost := o.property
      simp only [ZConfirmationOutcome.Fields.postInit, Except.unit_bind_eq_ok_iff] at hpost
      rw [show o.val.failure = some f from h] at hpost
      obtain ⟨hle, hvalid, hidle⟩ := singleStepValid_of_progress hpost.2.2.2 .zconfirmRaise
        .zconfirmAcknowledged .zconfirmIdle .zconfirmPostcondition
      refine ⟨_, _, rfl, hle, ?_, ?_⟩
      · intro m haction hack hstep
        simp [MachineMotionRecoveryEvidenceV1.Fields.typedStepValid, hack, haction, hstep, action,
          hvalid]
      · intro hexact
        simp only [isExactMotionProofFailure, action, Bool.and_eq_true, decide_eq_true_eq] at hexact
        exact hidle hexact.2

/-! ### When the evidence is accepted -/

/-- What the constructor of motion evidence establishes. -/
theorem MachineMotionRecoveryEvidenceV1.Fields.postInit_eq_ok_iff
    {m : MachineMotionRecoveryEvidenceV1.Fields} :
  m.postInit = .ok () ↔
    m.schemaVersion = 1 ∧ PlainText m.executionId ∧
      m.action ∈ [MachineAction.home, .zcal, .zconfirm] ∧
      (∀ n, m.acknowledgedSteps = some n → n ≤ maximumSteps m.action) ∧
      PlainText m.expectedMachineSessionEpoch ∧
      (∀ v, m.observedMachineSessionEpoch = some v → PlainText v) ∧
      (∀ s, m.snapshot = some s → s.val.executionId = m.executionId ∧
        some s.val.machineSessionEpoch = m.observedMachineSessionEpoch) ∧
      m.kindValid = true ∧ m.proofBacked = true
  := by
  simp only [postInit, checkSnapshot, validateMotionCrossProduct, Except.unit_bind_eq_ok_iff,
    checkSchemaVersion_eq_ok_iff, checkString_eq_ok_iff, rejectIf_eq_ok_iff, checkSome_eq_ok_iff,
    checkNullableString_eq_ok_iff, not_not, not_lt]

/-- The details are built exactly when the failure and the evidence are accepted. -/
theorem buildDetails_isOk_iff {failure : MachineFailureEvidenceV1.Fields}
    {motion : MachineMotionRecoveryEvidenceV1.Fields} :
  (∃ d, buildDetails failure motion = .ok d) ↔
    failure.postInit = .ok () ∧ motion.postInit = .ok ()
  := by
  simp only [buildDetails, Except.bind_eq_ok_iff, raising_eq_ok_iff]
  constructor
  · rintro ⟨d, f, hf, m, hm, -⟩
    exact ⟨acceptIf_isOk_iff.mp ⟨f, hf⟩, acceptIf_isOk_iff.mp ⟨m, hm⟩⟩
  · rintro ⟨hf, hm⟩
    obtain ⟨f, hf⟩ := acceptIf_isOk_iff.mpr hf
    obtain ⟨m, hm⟩ := acceptIf_isOk_iff.mpr hm
    exact ⟨_, f, hf, m, hm, rfl⟩

/-- The action of an outcome is a motion. -/
theorem MotionOutcome.action_mem (o : MotionOutcome p) :
  o.action ∈ [MachineAction.home, .zcal, .zconfirm]
  := by
  cases o <;> simp [action]

/-- A session snapshot is of the execution and of the epoch of the outcome. -/
theorem motionSessionSnapshot_authority {execution : MachineExecution} {o : MotionOutcome p}
    {observedAt : Timestamp} {snapshot : Option MachineSessionSnapshot}
    (h : motionSessionSnapshot p execution o observedAt = .ok snapshot) :
  ∀ s, snapshot = some s → s.val.executionId = execution.val.executionId ∧
    some s.val.machineSessionEpoch = some o.machineSessionEpoch
  := by
  rintro s rfl
  obtain ⟨source, -, -, hobserved⟩ := of_motionSessionSnapshot_some h
  exact ⟨hobserved.executionId, by rw [hobserved.machineSessionEpoch]⟩

/-- The evidence of an outcome with a failure is accepted exactly when the outcome is of
the session of the execution, and the state it reports is a plain text. -/
theorem typedFailureDetails_isOk_iff {execution : MachineExecution} {o : MotionOutcome p}
    {f : FluidNCFailure p.ucd} {observedAt : Timestamp} {snapshot : Option MachineSessionSnapshot}
    (hfailure : o.failure = some f)
    (hsnapshot : motionSessionSnapshot p execution o observedAt = .ok snapshot) :
  (∃ d, typedFailureDetails p execution o.action o f snapshot = .ok d) ↔
    o.machineSessionEpoch = execution.val.machineSessionEpoch ∧
      ∀ source, o.snapshot = some source → PlainText source.status.stateText
  := by
  obtain ⟨n, step, hprogress, hle, hstep, hexact⟩ := o.progress hfailure
  obtain ⟨hid, hepoch⟩ := execution.plainText_authority
  have hauthority := motionSessionSnapshot_authority hsnapshot
  simp only [typedFailureDetails, hprogress]
  change (∃ d, buildDetails _ _ = .ok d) ↔ _
  rw [buildDetails_isOk_iff, MachineMotionRecoveryEvidenceV1.Fields.postInit_eq_ok_iff]
  have hplain := f.plainText
  have hfields : MachineFailureEvidenceV1.Fields.postInit ⟨1, f.val.code, f.val.message,
      o.snapshot.map fun s => s.status.stateText, f.val.sideEffectMayHaveOccurred⟩ = .ok () ↔
        ∀ source, o.snapshot = some source → PlainText source.status.stateText := by
    simp [MachineFailureEvidenceV1.Fields.postInit, hplain]
  rw [hfields]
  constructor
  · rintro ⟨hstate, -, -, -, -, -, -, -, hkind, -⟩
    refine ⟨?_, hstate⟩
    by_cases hpost : (snapshot.isSome && isExactMotionProofFailure p o.action o f) = true
    · simp only [MachineMotionRecoveryEvidenceV1.Fields.kindValid, hpost, if_true,
        decide_eq_true_eq, Option.some.injEq] at hkind
      exact hkind.2.2.2.1
    · simp only [MachineMotionRecoveryEvidenceV1.Fields.kindValid, hpost, if_false,
        Bool.false_eq_true, decide_eq_true_eq, Option.some.injEq] at hkind
      exact hkind.1
  · rintro ⟨hsame, hstate⟩
    refine ⟨hstate, rfl, hid, o.action_mem, ?_, hepoch, ?_, hauthority, ?_, ?_⟩
    · rintro _ ⟨⟩
      exact hle
    · rintro _ ⟨⟩
      apply o.plainText_machineSessionEpoch
    · by_cases hpost : (snapshot.isSome && isExactMotionProofFailure p o.action o f) = true
      · have hsome := (Bool.and_eq_true_iff.mp hpost).1
        have hlast := hexact (Bool.and_eq_true_iff.mp hpost).2
        simp only [MachineMotionRecoveryEvidenceV1.Fields.kindValid, hpost, if_true, hlast, hsame,
          decide_eq_true_eq]
        simpa [Option.isSome_iff_ne_none] using hsome
      · simp only [MachineMotionRecoveryEvidenceV1.Fields.kindValid, hpost, if_false, hsame,
          Bool.false_eq_true, decide_eq_true_eq, true_and]
        apply hstep
        · rfl
        · rfl
        · rfl
    · simp [MachineMotionRecoveryEvidenceV1.Fields.proofBacked]

/-! ### Exceptions -/

/-- An exception that says that the action was not dispatched, or that its outcome was not
accepted. -/
def Raised.IsRefusal (exception : Option Raised) : Prop :=
  ∃ code, Raised.code? exception = some code ∧
    (isPreconditionCode code = true ∨ isInvalidOutcomeCode code = true)

/-- An exception that says that the session was not closed. -/
def Raised.IsClose (exception : Option Raised) : Prop :=
  ∃ code, Raised.code? exception = some code ∧ isCloseCode code = true

/-- The code and the message of an exception that is an error of the program are plain
texts. -/
def Raised.Printable (exception : Option Raised) : Prop :=
  ∀ e, exception = some (.error e) → PlainText e.code ∧ PlainText e.message

/-- An outcome whose snapshot has all positions and reports the idle state. -/
def MotionOutcome.ShowsIdle (o : MotionOutcome p) : Prop :=
  ∃ source, o.snapshot = some source ∧ source.Complete p.float ∧ source.status.stateText = "Idle"

/-- The kind of evidence that an exception makes. -/
theorem exceptionKind_cases (exception : Option Raised) (hasOutcome : Bool) :
  (Raised.IsRefusal exception ∧
      (exceptionKind (Raised.code? exception) hasOutcome = .preconditionRejected ∨
        exceptionKind (Raised.code? exception) hasOutcome = .invalidOutcome)) ∨
    (¬ Raised.IsRefusal exception ∧ Raised.IsClose exception ∧
      exceptionKind (Raised.code? exception) hasOutcome = .closeUncertain) ∨
    (¬ Raised.IsRefusal exception ∧ ¬ Raised.IsClose exception ∧
      exceptionKind (Raised.code? exception) hasOutcome =
        if hasOutcome then .commitUncertain else .adapterUncertain)
  := by
  unfold exceptionKind Raised.IsRefusal Raised.IsClose
  cases Raised.code? exception with
  | none => simp
  | some code =>
      by_cases hpre : isPreconditionCode code = true
      · simp [hpre]
      · by_cases hinvalid : isInvalidOutcomeCode code = true
        · simp [hpre, hinvalid]
        · by_cases hclose : isCloseCode code = true
          · simp [hpre, hinvalid, hclose]
          · simp [hpre, hinvalid, hclose]

/-- Two plain texts make a plain text. -/
theorem PlainText.append {s t : String} (hs : PlainText s) (ht : PlainText t) : PlainText (s ++ t) := by
  constructor
  · intro h
    apply hs.1
    rw [← String.toList_eq_nil_iff] at h ⊢
    rw [String.toList_append] at h
    exact (List.append_eq_nil_iff.mp h).1
  · intro c hc
    rw [String.toList_append] at hc
    rcases List.mem_append.mp hc with hc | hc
    · exact hs.2 c hc
    · exact ht.2 c hc

/-- The name of an action is a plain text. -/
theorem MachineAction.plainText_value (action : MachineAction) : PlainText action.value := by
  cases action <;> decide

/-- The failure of an exception is accepted. -/
theorem exceptionFailure_postInit {action : MachineAction} {exception : Option Raised}
    (h : Raised.Printable exception) :
  (exceptionFailure action exception).postInit = .ok ()
  := by
  have hcode : PlainText (action.value ++ "_AMBIGUOUS") := by
    apply action.plainText_value.append
    decide
  have hmessage : PlainText (action.value ++ " adapter dispatch or durable outcome " ++
      "commit failed with sanitized ambiguous evidence") := by
    apply PlainText.append
    · apply action.plainText_value.append
      decide +kernel
    · decide +kernel
  unfold exceptionFailure
  split
  · next e =>
      obtain ⟨hcode, hmessage⟩ := h e rfl
      simp [MachineFailureEvidenceV1.Fields.postInit, hcode, hmessage]
  · simp [MachineFailureEvidenceV1.Fields.postInit, hcode, hmessage]

/-- Evidence that claims a proof is accepted exactly when the outcome proves it: its
snapshot shows the idle state, in the session of the execution. -/
theorem proven_iff {execution : MachineExecution} {o : MotionOutcome p} {observedAt : Timestamp}
    {snapshot : Option MachineSessionSnapshot}
    (hsnapshot : motionSessionSnapshot p execution o observedAt = .ok snapshot) :
  (∃ s, snapshot = some s ∧ s.val.controllerState = "Idle" ∧ s.val.stabilized = true) ↔
    o.ShowsIdle
  := by
  constructor
  · rintro ⟨s, rfl, hidle, -⟩
    obtain ⟨source, hsource, hcomplete, hobserved⟩ := of_motionSessionSnapshot_some hsnapshot
    exact ⟨source, hsource, hcomplete, hobserved.controllerState.symm.trans hidle⟩
  · rintro ⟨source, hsource, hcomplete, hidle⟩
    cases snapshot with
    | none => exact absurd hcomplete (of_motionSessionSnapshot_none hsnapshot hsource)
    | some s =>
        obtain ⟨source', hsource', -, hobserved⟩ := of_motionSessionSnapshot_some hsnapshot
        cases hsource.symm.trans hsource'
        exact ⟨s, rfl, hobserved.controllerState.trans hidle, hobserved.stabilized⟩

/-- The evidence of an exception after an outcome without a failure is accepted exactly
when the exception is a refusal, or the outcome proves the idle state in the session of the
execution; and then the closing of a session only when it is a homing that is closed. -/
theorem exceptionEvidence_some_iff {execution : MachineExecution} {o : MotionOutcome p}
    {exception : Option Raised} {observedAt : Timestamp} {snapshot : Option MachineSessionSnapshot}
    (hsnapshot : motionSessionSnapshot p execution o observedAt = .ok snapshot) :
  (exceptionEvidence execution o.action (exceptionKind (Raised.code? exception) true)
      (some o.machineSessionEpoch) snapshot).postInit = .ok () ↔
    Raised.IsRefusal exception ∨
      (o.ShowsIdle ∧ o.machineSessionEpoch = execution.val.machineSessionEpoch ∧
        (Raised.IsClose exception → o.action = .home))
  := by
  obtain ⟨hid, hepoch⟩ := execution.plainText_authority
  have hauthority := motionSessionSnapshot_authority hsnapshot
  have hobserved := o.plainText_machineSessionEpoch
  have haction := o.action_mem
  rw [MachineMotionRecoveryEvidenceV1.Fields.postInit_eq_ok_iff, ← proven_iff hsnapshot]
  rcases exceptionKind_cases exception true with
    ⟨hrefusal, hkind | hkind⟩ | ⟨hrefusal, hclose, hkind⟩ | ⟨hrefusal, hclose, hkind⟩
  · rw [hkind]
    simp only [hrefusal, true_or, iff_true]
    simp [exceptionEvidence, MachineMotionRecoveryEvidenceV1.Fields.kindValid,
      MachineMotionRecoveryEvidenceV1.Fields.proofBacked, hid, hepoch, haction]
  · rw [hkind]
    simp only [hrefusal, true_or, iff_true]
    simp [exceptionEvidence, MachineMotionRecoveryEvidenceV1.Fields.kindValid,
      MachineMotionRecoveryEvidenceV1.Fields.proofBacked, hid, hepoch, haction, hobserved]
  · rw [hkind]
    simp only [hrefusal, hclose, false_or, true_implies]
    cases snapshot with
    | none =>
        simp [exceptionEvidence, MachineMotionRecoveryEvidenceV1.Fields.kindValid]
    | some s =>
        have hs := hauthority s rfl
        simp only [exceptionEvidence, MachineMotionRecoveryEvidenceV1.Fields.kindValid,
          MachineMotionRecoveryEvidenceV1.Fields.proofBacked, Option.some.injEq,
          decide_eq_true_eq, Option.isSome_some, Bool.true_eq_false, false_or, Option.any_some,
          exists_eq_left', forall_eq']
        constructor
        · rintro ⟨-, -, -, -, -, -, -, ⟨hhome, -, -, -, hsame, -⟩, -, hidle⟩
          exact ⟨hidle, hsame, hhome⟩
        · rintro ⟨hidle, hsame, hhome⟩
          refine ⟨trivial, hid, haction, le_refl _, hepoch, hobserved,
            ⟨hs.1, Option.some.inj hs.2⟩, ⟨hhome, ?_, trivial, by simp, hsame, trivial⟩, hsame,
            hidle⟩
          rw [hhome]
          rfl
  · rw [hkind]
    simp only [hrefusal, hclose, false_or, false_implies, and_true, if_true]
    cases snapshot with
    | none =>
        simp [exceptionEvidence, MachineMotionRecoveryEvidenceV1.Fields.kindValid]
    | some s =>
        have hs := hauthority s rfl
        simp only [exceptionEvidence, MachineMotionRecoveryEvidenceV1.Fields.kindValid,
          MachineMotionRecoveryEvidenceV1.Fields.proofBacked, Option.some.injEq,
          decide_eq_true_eq, Option.any_some, exists_eq_left', forall_eq']
        constructor
        · rintro ⟨-, -, -, -, -, -, -, ⟨-, -, -, hsame, hproven⟩, hbacked⟩
          rcases hbacked with hfalse | ⟨-, hidle⟩
          · rw [hproven] at hfalse
            cases hfalse
          · exact ⟨hidle, hsame⟩
        · rintro ⟨hidle, hsame⟩
          exact ⟨trivial, hid, haction, le_refl _, hepoch, hobserved,
            ⟨hs.1, Option.some.inj hs.2⟩, ⟨trivial, trivial, by simp, hsame, hidle.1⟩,
            .inr ⟨hsame, hidle⟩⟩

/-- The evidence of an exception without an outcome is accepted exactly when the exception
is a refusal, or does not say that a session was not closed. -/
theorem exceptionEvidence_none_iff (execution : MachineExecution) {action : MachineAction}
    {exception : Option Raised} (haction : action ∈ [MachineAction.home, .zcal, .zconfirm]) :
  (exceptionEvidence execution action (exceptionKind (Raised.code? exception) false) none
      none).postInit = .ok () ↔
    Raised.IsRefusal exception ∨ ¬ Raised.IsClose exception
  := by
  obtain ⟨hid, hepoch⟩ := execution.plainText_authority
  rw [MachineMotionRecoveryEvidenceV1.Fields.postInit_eq_ok_iff]
  rcases exceptionKind_cases exception false with
    ⟨hrefusal, hkind | hkind⟩ | ⟨hrefusal, hclose, hkind⟩ | ⟨hrefusal, hclose, hkind⟩
  · rw [hkind]
    simp [exceptionEvidence, MachineMotionRecoveryEvidenceV1.Fields.kindValid,
      MachineMotionRecoveryEvidenceV1.Fields.proofBacked, hid, hepoch, haction, hrefusal]
  · rw [hkind]
    simp [exceptionEvidence, MachineMotionRecoveryEvidenceV1.Fields.kindValid,
      MachineMotionRecoveryEvidenceV1.Fields.proofBacked, hid, hepoch, haction, hrefusal]
  · rw [hkind]
    simp [exceptionEvidence, MachineMotionRecoveryEvidenceV1.Fields.kindValid, hrefusal, hclose]
  · rw [hkind]
    simp [exceptionEvidence, MachineMotionRecoveryEvidenceV1.Fields.kindValid,
      MachineMotionRecoveryEvidenceV1.Fields.proofBacked, hid, hepoch, haction, hrefusal, hclose]

/-! ### The whole function -/

variable (p)

/-- What the outcome and the exception of a motion have to be for its evidence to be
accepted. The snapshot of an outcome is readable. An outcome with a failure is of the
session of the execution, and the state it reports is a plain text. An exception after an
outcome without a failure is a refusal, or the outcome shows the idle state in the session
of the execution, and it is a homing if the session was not closed. An exception without
an outcome is a refusal, or does not say that a session was not closed. -/
def MotionEvidenceFits (execution : MachineExecution) (action : MachineAction)
    (outcome : Option (MotionOutcome p)) (exception : Option Raised) : Prop :=
  match outcome with
  | none => Raised.IsRefusal exception ∨ ¬ Raised.IsClose exception
  | some o =>
      (∀ source, o.snapshot = some source → source.Readable p.float) ∧
        if o.failure.isSome then
          o.machineSessionEpoch = execution.val.machineSessionEpoch ∧
            ∀ source, o.snapshot = some source → PlainText source.status.stateText
        else
          Raised.IsRefusal exception ∨
            (o.ShowsIdle ∧ o.machineSessionEpoch = execution.val.machineSessionEpoch ∧
              (Raised.IsClose exception → action = .home))

/-- The evidence of a motion is accepted exactly when its outcome and its exception fit. -/
theorem motionRecoveryDetails_isOk_iff (execution : MachineExecution) (action : MachineAction)
    (outcome : Option (MotionOutcome p)) (exception : Option Raised) (observedAt : Timestamp)
    (hmotion : action ∈ [MachineAction.home, .zcal, .zconfirm])
    (haction : ∀ o, outcome = some o → o.action = action)
    (hprintable : Raised.Printable exception) :
  (∃ d, motionRecoveryDetails p execution action outcome exception observedAt = .ok d) ↔
    MotionEvidenceFits p execution action outcome exception
  := by
  have hfailure : (exceptionFailure action exception).postInit = .ok () :=
    exceptionFailure_postInit hprintable
  unfold motionRecoveryDetails MotionEvidenceFits
  cases outcome with
  | none =>
      rw [← exceptionEvidence_none_iff execution hmotion]
      simp only [observedSnapshot, raising, rejectIf, hmotion, not_true_eq_false, if_false]
      change (∃ d, buildDetails _ _ = .ok d) ↔ _
      rw [buildDetails_isOk_iff]
      simp [hfailure]
  | some o =>
      cases haction o rfl
      simp only [observedSnapshot]
      rw [← motionSessionSnapshot_isOk_iff execution o observedAt]
      cases hsnapshot : motionSessionSnapshot p execution o observedAt with
      | error e =>
          simp [raising, Except.bind_eq_ok_iff]
      | ok snapshot =>
          simp only [raising, rejectIf, hmotion, not_true_eq_false, if_false, Except.ok.injEq,
            exists_eq', true_and, Option.bind_some]
          cases hf : o.failure with
          | some f => exact typedFailureDetails_isOk_iff hf hsnapshot
          | none =>
              change (∃ d, buildDetails _ _ = .ok d) ↔ _
              rw [buildDetails_isOk_iff]
              simp only [hfailure, true_and]
              exact exceptionEvidence_some_iff hsnapshot

/-! ### Driven motions -/

/-- The outcome and the exception for which the drive of a motion records evidence. The
session may be missing or not be idle, and then nothing is dispatched. The adapter, or the
check of what it returned, may raise any exception. An outcome of the action is accepted
before its session is looked at: one of another session makes an exception, one with a
failure is recorded as it is, and whatever is raised from then on, by the clock, the close
of the session or a commit, is recorded with the outcome. -/
inductive DriveMotionPasses (current : MachineExecution) (action : MachineAction) :
    Option (MotionOutcome p) → Option Raised → Prop where
  | unavailable : DriveMotionPasses current action none
      (some (chainFail "SESSION_OWNERSHIP_UNCERTAIN"
        "the admitted same-session FluidNC handle is unavailable"))
  | notIdle : DriveMotionPasses current action none
      (some (chainFail "MOTION_PRECONDITION_UNSAFE"
        "motion dispatch requires exact same-session Idle evidence"))
  | raised (e : Raised) : DriveMotionPasses current action none (some e)
  | foreign (o : MotionOutcome p) (haction : o.action = action)
      (hreserved : reservedMotionProofAuthorityIsValid p action o = true)
      (hepoch : o.machineSessionEpoch ≠ current.val.machineSessionEpoch) :
      DriveMotionPasses current action (some o)
        (some (chainFail "MOTION_OUTCOME_EPOCH_MISMATCH"
          "motion outcome did not bind the admitted same-session epoch"))
  | failed (o : MotionOutcome p) (haction : o.action = action)
      (hreserved : reservedMotionProofAuthorityIsValid p action o = true)
      (hepoch : o.machineSessionEpoch = current.val.machineSessionEpoch)
      (hfailure : o.failure ≠ none) :
      DriveMotionPasses current action (some o) none
  | later (o : MotionOutcome p) (haction : o.action = action)
      (hreserved : reservedMotionProofAuthorityIsValid p action o = true)
      (hepoch : o.machineSessionEpoch = current.val.machineSessionEpoch) (e : Raised) :
      DriveMotionPasses current action (some o) (some e)

end

/-! ### Samples -/

/-- The epoch of the sample session. -/
def sampleEpoch : String := "00000000-0000-4000-8000-000000000001"

/-- The epoch of another session. -/
def otherEpoch : String := "00000000-0000-4000-8000-000000000002"

/-- An execution that homes the axes. -/
def homingExecution : MachineExecution :=
  ⟨{ Database.sampleFields "a" sampleEpoch with revision := 2, phase := .homing },
    by decide +kernel⟩

/-- The fields of a homing that was not acknowledged in time. -/
def lostHomeFields (epoch : String) : HomeOutcome.Fields Platform.plain where
  machineSessionEpoch := epoch
  request := ⟨⟨⟨192, 192, 192⟩, 1⟩, by decide +kernel⟩
  snapshot := none
  failure := some ⟨⟨.lostAck, "SERIAL_RESPONSE_TIMEOUT", "FluidNC response deadline expired", true⟩,
    by decide +kernel⟩
  observation := none
  acknowledgedSteps := 0
  stage := .dispatchAttempted

/-- A homing that was not acknowledged in time. -/
def lostHome : MotionOutcome Platform.plain := .home ⟨lostHomeFields sampleEpoch, by decide +kernel⟩

/-- A homing that was not acknowledged in time, in another session. -/
def foreignHome : MotionOutcome Platform.plain := .home ⟨lostHomeFields otherEpoch, by decide +kernel⟩

/-- The exception that an outcome of another session makes. -/
def epochMismatch : Raised :=
  chainFail "MOTION_OUTCOME_EPOCH_MISMATCH"
    "motion outcome did not bind the admitted same-session epoch"

/-- The evidence of a homing that was not acknowledged in time is accepted. -/
theorem motionRecoveryDetails_lostHome :
  ∃ d, motionRecoveryDetails Platform.plain homingExecution .home (some lostHome) none 1 = .ok d
  := by
  apply (motionRecoveryDetails_isOk_iff Platform.plain homingExecution .home (some lostHome) none 1
    (by decide) ?_ ?_).mpr
  · refine ⟨?_, rfl, ?_⟩
    · rintro source ⟨⟩
    · rintro source ⟨⟩
  · rintro o ⟨⟩
    rfl
  · rintro e ⟨⟩

/-- A homing that was not acknowledged in time, in another session: the drive passes it on,
and its evidence is not accepted. -/
theorem foreignHome_rejected :
  DriveMotionPasses Platform.plain homingExecution .home (some foreignHome) (some epochMismatch) ∧
    ¬ ∃ d, motionRecoveryDetails Platform.plain homingExecution .home (some foreignHome)
      (some epochMismatch) 1 = .ok d
  := by
  constructor
  · apply DriveMotionPasses.foreign
    · rfl
    · decide +kernel
    · decide +kernel
  · rintro ⟨d, hd⟩
    have herror : (motionRecoveryDetails Platform.plain homingExecution .home (some foreignHome)
        (some epochMismatch) 1).isOk = false := by
      decide +kernel
    rw [hd] at herror
    cases herror

end DrawingMachine
