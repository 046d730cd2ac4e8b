import DrawingMachine.Machine.FromJson

/-!
# Decoding the evidence of an execution

The decoders of failure evidence, session snapshots, motion evidence and recovery evidence.
Each reads its payload in the order of its constructor call. A payload *describes* the record
that its decoder builds of it.
-/

namespace DrawingMachine

open Declares PyValue FromJson

/-! ### Names -/

/-- The actions by their names. -/
def MachineAction.members : List (String × MachineAction) :=
  MachineAction.all.map fun action => (action.value, action)

/-- The kinds of motion evidence by their names. -/
def MachineMotionEvidenceKind.members : List (String × MachineMotionEvidenceKind) :=
  [ ("PRECONDITION_REJECTED", .preconditionRejected),
    ("TYPED_FAILURE", .typedFailure),
    ("INVALID_OUTCOME", .invalidOutcome),
    ("POSTCONDITION_REJECTED", .postconditionRejected),
    ("ADAPTER_UNCERTAIN", .adapterUncertain),
    ("COMMIT_UNCERTAIN", .commitUncertain),
    ("CLOSE_UNCERTAIN", .closeUncertain) ]

/-- The steps of a motion by their names. -/
def MachineMotionStep.members : List (String × MachineMotionStep) :=
  [ ("UNKNOWN", .unknown),
    ("ACTION_ADMITTED", .actionAdmitted),
    ("HOME_DISPATCH", .homeDispatch),
    ("HOME_ACKNOWLEDGED", .homeAcknowledged),
    ("HOME_IDLE", .homeIdle),
    ("HOME_POSTCONDITION", .homePostcondition),
    ("ZCAL_METRIC", .zcalMetric),
    ("ZCAL_METRIC_ACKNOWLEDGED", .zcalMetricAcknowledged),
    ("ZCAL_ABSOLUTE", .zcalAbsolute),
    ("ZCAL_ABSOLUTE_ACKNOWLEDGED", .zcalAbsoluteAcknowledged),
    ("ZCAL_WORK_COORDINATE", .zcalWorkCoordinate),
    ("ZCAL_WORK_COORDINATE_ACKNOWLEDGED", .zcalWorkCoordinateAcknowledged),
    ("ZCAL_PEN_UP", .zcalPenUp),
    ("ZCAL_PEN_UP_ACKNOWLEDGED", .zcalPenUpAcknowledged),
    ("ZCAL_CENTER", .zcalCenter),
    ("ZCAL_CENTER_ACKNOWLEDGED", .zcalCenterAcknowledged),
    ("ZCAL_CONTACT", .zcalContact),
    ("ZCAL_CONTACT_ACKNOWLEDGED", .zcalContactAcknowledged),
    ("ZCAL_POSTCONDITION", .zcalPostcondition),
    ("ZCONFIRM_RAISE", .zconfirmRaise),
    ("ZCONFIRM_ACKNOWLEDGED", .zconfirmAcknowledged),
    ("ZCONFIRM_IDLE", .zconfirmIdle),
    ("ZCONFIRM_POSTCONDITION", .zconfirmPostcondition),
    ("SESSION_CLOSE", .sessionClose),
    ("COMMIT_AFTER_SIDE_EFFECT", .commitAfterSideEffect) ]

/-- The recovery intents by their names. -/
def RecoveryIntent.members : List (String × RecoveryIntent) :=
  [ ("PRE_STREAM_RESTART", .preStreamRestart),
    ("STREAM_AMBIGUOUS_RELEASE_ONLY", .streamAmbiguousReleaseOnly),
    ("POST_STREAM_SAFE_HOME", .postStreamSafeHome) ]

/-- The milestones of a stream by their names. -/
def StreamMilestone.members : List (String × StreamMilestone) :=
  [ ("NOT_STARTED", .notStarted),
    ("FIRST_WRITE_POSSIBLE", .firstWritePossible),
    ("STREAM_CONFIRMED", .streamConfirmed) ]

/-! ### Fields -/

/-- The fields of failure evidence. -/
def failureFields : List String :=
  ["schema_version", "code", "message", "controller_state", "side_effect_possible"]

/-- The fields of a session snapshot. -/
def sessionFields : List String :=
  ["schema_version", "execution_id", "machine_session_epoch", "controller_state", "mpos",
    "wpos", "wco", "g54", "stabilized", "observed_at"]

/-- The fields of motion evidence. -/
def motionEvidenceFields : List String :=
  ["schema_version", "execution_id", "action", "kind", "last_step", "acknowledged_steps",
    "expected_machine_session_epoch", "observed_machine_session_epoch", "snapshot",
    "postcondition_proven"]

/-- The fields of recovery evidence before motion evidence was part of it. -/
def recoveryFieldsV1 : List String :=
  ["schema_version", "execution_id", "recovery_intent", "stream_milestone", "reason_code",
    "failure", "occurred_at"]

/-- The fields of recovery evidence. -/
def recoveryFieldsWithMotion : List String := recoveryFieldsV1 ++ ["motion"]

section

variable {φ : Type} (py : PyReading φ) (payload : PyValue φ)

/-! ### The decoders -/

/-- Decode failure evidence. -/
def MachineFailureEvidenceV1.fromJson : Decoder MachineFailureEvidenceV1 := do
  let data ← object payload failureFields "machine failure evidence"
  let controllerState ← nullable (fun value => string value "failure.controller_state")
    (← item data "controller_state")
  let sideEffectPossible ← boolean (← item data "side_effect_possible")
    (invalid "failure.side_effect_possible must be a boolean")
  let schemaVersion ← integer (← item data "schema_version") "failure.schema_version" 1
  let code ← string (← item data "code") "failure.code"
  let message ← string (← item data "message") "failure.message"
  declared (acceptIf MachineFailureEvidenceV1.Fields.postInit
    { schemaVersion, code, message, controllerState, sideEffectPossible })

/-- Decode a session snapshot. -/
def MachineSessionSnapshot.fromJson : Decoder MachineSessionSnapshot := do
  let data ← object payload sessionFields "machine session snapshot"
  let observedText ← string (← item data "observed_at") "session.observed_at"
  let observed ← isoDatetime py observedText "session.observed_at"
  let stabilized ← boolean (← item data "stabilized")
    (invalidField "session.stabilized must be a boolean" "session.stabilized")
  let schemaVersion ← integer (← item data "schema_version") "session.schema_version" 1
  let executionId ← string (← item data "execution_id") "session.execution_id"
  let machineSessionEpoch ← string (← item data "machine_session_epoch")
    "session.machine_session_epoch"
  let controllerState ← string (← item data "controller_state") "session.controller_state"
  let mpos ← jsonPosition py (← item data "mpos") "session.mpos"
  let wpos ← jsonPosition py (← item data "wpos") "session.wpos"
  let wco ← jsonPosition py (← item data "wco") "session.wco"
  let g54 ← jsonPosition py (← item data "g54") "session.g54"
  let observedAt ← timestamp observed "session.observed_at"
  declared (acceptIf MachineSessionSnapshot.Fields.postInit
    { schemaVersion, executionId, machineSessionEpoch, controllerState, mpos, wpos, wco, g54,
      stabilized, observedAt })

/-- Decode motion evidence. -/
def MachineMotionRecoveryEvidenceV1.fromJson : Decoder MachineMotionRecoveryEvidenceV1 := do
  let data ← object payload motionEvidenceFields "machine motion recovery evidence"
  let snapshotValue ← item data "snapshot"
  let postconditionProven ← boolean (← item data "postcondition_proven")
    (invalid "motion postcondition flag must be a boolean")
  let schemaVersion ← integer (← item data "schema_version") "motion.schema_version" 1
  let executionId ← string (← item data "execution_id") "motion.execution_id"
  let action ← enumJson MachineAction.members (← item data "action") "motion.action"
  let kind ← enumJson MachineMotionEvidenceKind.members (← item data "kind") "motion.kind"
  let lastStep ← enumJson MachineMotionStep.members (← item data "last_step") "motion.last_step"
  let acknowledgedSteps ← nullable
    (fun value => integer value "motion.acknowledged_steps" 0) (← item data "acknowledged_steps")
  let expectedMachineSessionEpoch ← string (← item data "expected_machine_session_epoch")
    "motion.expected_machine_session_epoch"
  let observedMachineSessionEpoch ← nullable
    (fun value => string value "motion.observed_machine_session_epoch")
    (← item data "observed_machine_session_epoch")
  let snapshot ← nullable (MachineSessionSnapshot.fromJson py) snapshotValue
  declared (acceptIf MachineMotionRecoveryEvidenceV1.Fields.postInit
    { schemaVersion, executionId, action, kind, lastStep, acknowledgedSteps,
      expectedMachineSessionEpoch, observedMachineSessionEpoch, snapshot, postconditionProven })

/-- The motion evidence of recovery evidence, which older evidence has no field for. -/
def motionOf (data : List (PyStr × PyValue φ)) :
    Decoder (Option MachineMotionRecoveryEvidenceV1) :=
  match lookup data "motion" with
  | none => .ok none
  | some value => nullable (MachineMotionRecoveryEvidenceV1.fromJson py) value

/-- Decode the fields of recovery evidence. -/
def MachineRecoveryEvidence.fromFields (fields : List String) :
    Decoder MachineRecoveryEvidence := do
  let data ← object payload fields "machine recovery evidence"
  let occurredText ← string (← item data "occurred_at") "recovery.occurred_at"
  let occurred ← isoDatetime py occurredText "recovery.occurred_at"
  let schemaVersion ← integer (← item data "schema_version") "recovery.schema_version" 1
  let executionId ← string (← item data "execution_id") "recovery.execution_id"
  let recoveryIntent ← enumJson RecoveryIntent.members (← item data "recovery_intent")
    "recovery.recovery_intent"
  let streamMilestone ← enumJson StreamMilestone.members (← item data "stream_milestone")
    "recovery.stream_milestone"
  let reasonCode ← string (← item data "reason_code") "recovery.reason_code"
  let failure ← MachineFailureEvidenceV1.fromJson (← item data "failure")
  let occurredAt ← timestamp occurred "recovery.occurred_at"
  let motion ← motionOf py data
  declared (acceptIf MachineRecoveryEvidence.Fields.postInit
    { schemaVersion, executionId, recoveryIntent, streamMilestone, reasonCode, failure,
      occurredAt, motion })

/-- Decode recovery evidence, with or without the field for motion evidence. -/
def MachineRecoveryEvidence.fromJson : Decoder MachineRecoveryEvidence :=
  match payload with
  | .obj entries =>
      MachineRecoveryEvidence.fromFields py payload
        (if HasExactly entries recoveryFieldsV1 then recoveryFieldsV1
         else recoveryFieldsWithMotion)
  | _ =>
      raise (invalidField "machine recovery evidence must be an object"
        "machine recovery evidence")

end

/-! ### What the decoders return and let through -/

section

variable {φ : Type} {py : PyReading φ} {payload : PyValue φ}

/-- A payload describes failure evidence. -/
def MachineFailureEvidenceV1.Fields.DescribedBy (f : MachineFailureEvidenceV1.Fields)
    (payload : PyValue φ) : Prop :=
  ∃ data, payload = .obj data ∧ HasExactly data failureFields ∧
    IsInteger 1 (valueAt data "schema_version") f.schemaVersion ∧
    IsText (valueAt data "code") f.code ∧
    IsText (valueAt data "message") f.message ∧
    IsNullable IsText (valueAt data "controller_state") f.controllerState ∧
    valueAt data "side_effect_possible" = .bool f.sideEffectPossible

/-- Failure evidence is decoded from the payloads that describe it. -/
theorem MachineFailureEvidenceV1.fromJson_eq_ok_iff {f : MachineFailureEvidenceV1} :
  MachineFailureEvidenceV1.fromJson payload = .ok f ↔ f.val.DescribedBy payload
  := by
  apply object_bind_eq_ok_iff
  intro data h
  simp (disch := decide) only [item_eq h, ok_bind, Except.bind_eq_ok_iff, nullable_string_eq_ok_iff,
    boolean_eq_ok_iff, integer_eq_ok_iff, string_eq_ok_iff, declared_eq_ok_iff,
    acceptIf_eq_ok_iff]
  constructor
  · rintro ⟨state, hstate, b, hb, n, hn, code, hcode, message, hmessage, hf⟩
    rw [hf]
    apply And.intro hn ⟨hcode, hmessage, hstate, hb⟩
  · rintro ⟨hn, hcode, hmessage, hstate, hb⟩
    use f.val.controllerState, hstate, f.val.sideEffectPossible, hb, f.val.schemaVersion, hn,
      f.val.code, hcode, f.val.message, hmessage

/-- No exception escapes the decoder of failure evidence. -/
theorem MachineFailureEvidenceV1.not_escapes_fromJson :
  ¬ Escapes (MachineFailureEvidenceV1.fromJson payload)
  := by
  apply not_escapes_object_bind
  intro data h
  simp (disch := decide) only [item_eq h, ok_bind]
  simp [escapes_bind_iff]

/-- The values of a session snapshot that are read before its positions are as they should
be. -/
def SessionHead (py : PyReading φ) (data : List (PyStr × PyValue φ)) : Prop :=
  (∃ d, IsDatetime py (valueAt data "observed_at") d) ∧
    (∃ b, valueAt data "stabilized" = .bool b) ∧
    (∃ n, IsInteger 1 (valueAt data "schema_version") n) ∧
    (∃ t, IsText (valueAt data "execution_id") t) ∧
    (∃ t, IsText (valueAt data "machine_session_epoch") t) ∧
    ∃ t, IsText (valueAt data "controller_state") t

/-- The first of the positions of a session snapshot that is not a position has an integer
too large for a float among its coordinates. -/
def PositionsOverflow (py : PyReading φ) (data : List (PyStr × PyValue φ)) : Prop :=
  FirstBad (fun v => ∃ p, IsPosition py v p) (PositionOverflows py)
    [valueAt data "mpos", valueAt data "wpos", valueAt data "wco", valueAt data "g54"]

/-- A session snapshot is as it should be up to a coordinate that is too large. -/
def SessionOverflows (py : PyReading φ) (payload : PyValue φ) : Prop :=
  ∃ data, payload = .obj data ∧ HasExactly data sessionFields ∧ SessionHead py data ∧
    PositionsOverflow py data

/-- An exception escapes the decoder of session snapshots exactly when a coordinate is too
large for a float and everything read before it is as it should be. -/
theorem MachineSessionSnapshot.escapes_fromJson_iff :
  Escapes (MachineSessionSnapshot.fromJson py payload) ↔ SessionOverflows py payload
  := by
  apply escapes_object_bind_iff
  intro data h
  simp (disch := decide) only [item_eq h, ok_bind, escapes_bind_iff, not_escapes_string,
    not_escapes_isoDatetime, not_escapes_boolean, not_escapes_integer, not_escapes_timestamp,
    not_escapes_declared, escapes_jsonPosition_iff, string_eq_ok_iff, isoDatetime_eq_ok_iff,
    boolean_eq_ok_iff, integer_eq_ok_iff, jsonPosition_eq_ok_iff, SessionHead,
    PositionsOverflow, firstBad_cons_iff, not_firstBad_nil, false_or, or_false, and_false,
    exists_false, exists_and_right]
  constructor
  · rintro ⟨t, ht, ⟨d, hd⟩, hstabilized, hversion, hid, hepoch, hstate, hpositions⟩
    exact ⟨⟨⟨d, t, ht, hd⟩, hstabilized, hversion, hid, hepoch, hstate⟩, hpositions⟩
  · rintro ⟨⟨⟨d, t, ht, hd⟩, hstabilized, hversion, hid, hepoch, hstate⟩, hpositions⟩
    exact ⟨t, ht, ⟨d, hd⟩, hstabilized, hversion, hid, hepoch, hstate, hpositions⟩

/-- Null is no session snapshot. -/
theorem not_sessionOverflows_null : ¬ SessionOverflows py (.null : PyValue φ) := by
  rintro ⟨data, h, -⟩
  cases h

/-- The values of motion evidence that are read before its snapshot are as they should be. -/
def MotionHead (data : List (PyStr × PyValue φ)) : Prop :=
  (∃ b, valueAt data "postcondition_proven" = .bool b) ∧
    (∃ n, IsInteger 1 (valueAt data "schema_version") n) ∧
    (∃ t, IsText (valueAt data "execution_id") t) ∧
    (∃ action, IsMember MachineAction.members (valueAt data "action") action) ∧
    (∃ kind, IsMember MachineMotionEvidenceKind.members (valueAt data "kind") kind) ∧
    (∃ step, IsMember MachineMotionStep.members (valueAt data "last_step") step) ∧
    (∃ n, IsNullable (IsInteger 0) (valueAt data "acknowledged_steps") n) ∧
    (∃ t, IsText (valueAt data "expected_machine_session_epoch") t) ∧
    ∃ t, IsNullable IsText (valueAt data "observed_machine_session_epoch") t

/-- Motion evidence is as it should be up to a coordinate of its snapshot that is too large. -/
def MotionOverflows (py : PyReading φ) (payload : PyValue φ) : Prop :=
  ∃ data, payload = .obj data ∧ HasExactly data motionEvidenceFields ∧ MotionHead data ∧
    SessionOverflows py (valueAt data "snapshot")

/-- An exception escapes the decoder of motion evidence exactly when it escapes that of its
snapshot and everything read before the snapshot is as it should be. -/
theorem MachineMotionRecoveryEvidenceV1.escapes_fromJson_iff :
  Escapes (MachineMotionRecoveryEvidenceV1.fromJson py payload) ↔ MotionOverflows py payload
  := by
  have hsnapshot (v : PyValue φ) :
      Escapes (nullable (MachineSessionSnapshot.fromJson py) v) ↔ SessionOverflows py v := by
    rw [escapes_nullable_iff, MachineSessionSnapshot.escapes_fromJson_iff]
    rw [MachineSessionSnapshot.escapes_fromJson_iff]
    apply not_sessionOverflows_null
  apply escapes_object_bind_iff
  intro data h
  simp (disch := decide) only [item_eq h, ok_bind]
  simp only [escapes_bind_iff, not_escapes_boolean, not_escapes_integer, not_escapes_string,
    not_escapes_enumJson, not_escapes_nullable, not_escapes_declared, hsnapshot,
    boolean_eq_ok_iff, integer_eq_ok_iff, string_eq_ok_iff, enumJson_eq_ok_iff,
    nullable_integer_eq_ok_iff, nullable_string_eq_ok_iff, MotionHead, not_false_eq_true,
    implies_true, false_or, or_false, and_false, exists_false, exists_and_right, and_assoc]

/-- Null is no motion evidence. -/
theorem not_motionOverflows_null : ¬ MotionOverflows py (.null : PyValue φ) := by
  rintro ⟨data, h, -⟩
  cases h

/-- The values of recovery evidence that are read before its motion evidence are as they
should be. -/
def RecoveryHead (py : PyReading φ) (data : List (PyStr × PyValue φ)) : Prop :=
  (∃ t, IsDatetime py (valueAt data "occurred_at") (.aware t)) ∧
    (∃ n, IsInteger 1 (valueAt data "schema_version") n) ∧
    (∃ t, IsText (valueAt data "execution_id") t) ∧
    (∃ intent, IsMember RecoveryIntent.members (valueAt data "recovery_intent") intent) ∧
    (∃ milestone, IsMember StreamMilestone.members (valueAt data "stream_milestone") milestone) ∧
    (∃ t, IsText (valueAt data "reason_code") t) ∧
    ∃ f : MachineFailureEvidenceV1, f.val.DescribedBy (valueAt data "failure")

/-- Recovery evidence is as it should be up to a coordinate of the snapshot of its motion
evidence that is too large. -/
def RecoveryOverflows (py : PyReading φ) (payload : PyValue φ) : Prop :=
  ∃ data, payload = .obj data ∧ HasExactly data recoveryFieldsWithMotion ∧
    RecoveryHead py data ∧ MotionOverflows py (valueAt data "motion")

/-- What escapes the reading of the motion evidence escapes its decoder. -/
theorem escapes_motionOf_iff {data : List (PyStr × PyValue φ)} :
  Escapes (motionOf py data) ↔ MotionOverflows py (valueAt data "motion")
  := by
  unfold motionOf
  split
  · rename_i h
    rw [valueAt, h, Option.getD_none]
    simpa using not_motionOverflows_null
  · rename_i value h
    rw [valueAt, h, Option.getD_some, escapes_nullable_iff,
      MachineMotionRecoveryEvidenceV1.escapes_fromJson_iff]
    rw [MachineMotionRecoveryEvidenceV1.escapes_fromJson_iff]
    apply not_motionOverflows_null

/-- An exception escapes the decoder of the fields of recovery evidence exactly when it
escapes that of its motion evidence and everything read before is as it should be. -/
theorem MachineRecoveryEvidence.escapes_fromFields_iff {fields : List String}
    (hfields : recoveryFieldsV1 ⊆ fields) :
  Escapes (MachineRecoveryEvidence.fromFields py payload fields)
    ↔ ∃ data, payload = .obj data ∧ HasExactly data fields ∧ RecoveryHead py data ∧
        MotionOverflows py (valueAt data "motion")
  := by
  apply escapes_object_bind_iff
  intro data h
  have hitem : ∀ key ∈ recoveryFieldsV1, item data key = .ok (valueAt data key) := by
    intro key hkey
    apply item_eq h (hfields hkey)
  simp (disch := decide) only [hitem, ok_bind]
  simp only [escapes_bind_iff, not_escapes_string, not_escapes_isoDatetime,
    not_escapes_integer, not_escapes_enumJson, MachineFailureEvidenceV1.not_escapes_fromJson,
    not_escapes_timestamp, not_escapes_declared, escapes_motionOf_iff, string_eq_ok_iff,
    isoDatetime_eq_ok_iff, integer_eq_ok_iff, enumJson_eq_ok_iff,
    MachineFailureEvidenceV1.fromJson_eq_ok_iff, timestamp_eq_ok_iff, RecoveryHead,
    false_or, or_false, and_false, exists_false, exists_and_right, and_assoc]
  constructor
  · rintro ⟨t, ht, _, hd, hversion, hid, hintent, hmilestone, hreason, hfailure, ⟨i, rfl⟩, hmotion⟩
    exact ⟨⟨i, t, ht, hd⟩, hversion, hid, hintent, hmilestone, hreason, hfailure, hmotion⟩
  · rintro ⟨⟨i, t, ht, hd⟩, hversion, hid, hintent, hmilestone, hreason, hfailure, hmotion⟩
    exact ⟨t, ht, _, hd, hversion, hid, hintent, hmilestone, hreason, hfailure, ⟨i, rfl⟩, hmotion⟩

/-- Evidence with the fields from before motion evidence has none. -/
theorem not_motionOverflows_of_hasExactly {data : List (PyStr × PyValue φ)}
    (h : HasExactly data recoveryFieldsV1) :
  ¬ MotionOverflows py (valueAt data "motion")
  := by
  rw [valueAt, h.lookup_eq_none (by decide)]
  apply not_motionOverflows_null

/-- An exception escapes the decoder of recovery evidence exactly when it escapes that of its
motion evidence and everything read before is as it should be. -/
theorem MachineRecoveryEvidence.escapes_fromJson_iff :
  Escapes (MachineRecoveryEvidence.fromJson py payload) ↔ RecoveryOverflows py payload
  := by
  cases payload with
  | obj entries =>
      rw [MachineRecoveryEvidence.fromJson, RecoveryOverflows]
      split_ifs with hfields
      · rw [MachineRecoveryEvidence.escapes_fromFields_iff (List.Subset.refl _)]
        constructor
        · rintro ⟨data, -, hdata, -, hmotion⟩
          apply absurd hmotion (not_motionOverflows_of_hasExactly hdata)
        · rintro ⟨_, heq, hdata, -⟩
          cases heq
          have hmotion : "motion" ∈ recoveryFieldsWithMotion := by decide
          apply absurd hdata (hfields.not_of_mem hmotion (by decide))
      · apply MachineRecoveryEvidence.escapes_fromFields_iff
        apply List.subset_append_left
  | _ => simp [MachineRecoveryEvidence.fromJson, RecoveryOverflows]

end

end DrawingMachine
