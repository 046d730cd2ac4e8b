import DrawingMachine.Machine.Models

/-!
# Machine executions

The record of one machine execution, the checks of its constructor, and the relation
between two consecutive revisions of it.

The checks are grouped as the constructor makes them: the plain fields, the evidence,
the retirement, the timeline, the recovery state, the successor's part of the phase graph
and the phase against the milestone. The lemmas after each group say what a constructed
execution has established by it.
-/

namespace DrawingMachine

/-- The fields of a machine execution. -/
structure MachineExecution.Fields where
  schemaVersion : Nat
  executionId : String
  jobId : String
  readyRevision : Nat
  revision : Nat
  phase : MachinePhase
  serviceEpoch : String
  machineSessionEpoch : String
  gcodeSha256 : String
  applicationVersion : String
  applicationDigest : String
  machineDigest : String
  providerDigest : String
  streamMilestone : StreamMilestone
  recoveryIntent : Option RecoveryIntent
  predecessorExecutionId : Option String
  recoveryEvidence : Option MachineRecoveryEvidence
  retirement : Option OwnerRetirementEvidence
  createdAt : Timestamp
  updatedAt : Timestamp
  deriving DecidableEq, Repr

namespace MachineExecution.Fields

variable (e : MachineExecution.Fields)

/-- How the execution retired, if it did. -/
def retirementDisposition : Option RetirementDisposition :=
  match e.retirement with
  | none => none
  | some r => some r.val.disposition

/-- The disposition of an execution is that of its retirement. -/
theorem retirementDisposition_eq_some_iff {e : MachineExecution.Fields}
    {d : RetirementDisposition} :
  e.retirementDisposition = some d ↔ ∃ r, e.retirement = some r ∧ r.val.disposition = d
  := by
  unfold retirementDisposition
  cases e.retirement with
  | none => simp
  | some r => simp

/-! ### The checks of the constructor -/

/-- The checks of the plain fields. -/
def checkFields : Except ErrorPayload Unit := do
  checkSchemaVersion e.schemaVersion "execution.schema_version"
    (invalidField "execution schema version is unsupported" "execution.schema_version")
  checkString e.executionId "execution.execution_id"
  checkString e.jobId "execution.job_id"
  checkInteger e.readyRevision "execution.ready_revision" 1
  checkString e.serviceEpoch "execution.service_epoch"
  checkString e.machineSessionEpoch "execution.machine_session_epoch"
  checkDigest e.gcodeSha256 "execution.gcode_sha256"
  checkString e.applicationVersion "execution.application_version"
  checkDigest e.applicationDigest "execution.application_digest"
  checkDigest e.machineDigest "execution.machine_digest"
  checkDigest e.providerDigest "execution.provider_digest"
  checkNullableString e.predecessorExecutionId "execution.predecessor_execution_id"
  rejectIf (e.predecessorExecutionId = some e.executionId)
    (invalid "execution cannot be its own predecessor")

/-- The checks of the recovery evidence against the execution. -/
def checkEvidence : Except ErrorPayload Unit :=
  checkSome e.recoveryEvidence fun r => do
    rejectIf (r.val.executionId ≠ e.executionId)
      (invalid "recovery evidence must identify its execution")
    checkSome r.val.motion fun m =>
      rejectIf (m.val.expectedMachineSessionEpoch ≠ e.machineSessionEpoch)
        (invalid "motion evidence must match the execution session authority")

/-- The checks of the retirement against the execution. -/
def checkRetirement : Except ErrorPayload Unit := do
  checkSome e.retirement fun r => do
    rejectIf (r.val.predecessorExecutionId ≠ e.executionId)
      (invalid "retirement must identify its execution")
    rejectIf (r.val.disposition = .completed ∧ e.phase ≠ .completed)
      (invalid "completed retirement requires COMPLETED phase")
    rejectIf (r.val.disposition ∈ [RetirementDisposition.released, .transferred] ∧
        e.phase ≠ .recoveryRequired)
      (invalid "release or transfer retirement requires RECOVERY_REQUIRED phase")
  rejectIf (e.phase = .completed ∧
      e.retirementDisposition ≠ some .completed)
    (invalid "COMPLETED requires immutable completed retirement evidence")

/-- The checks of the timestamps. -/
def checkTimeline : Except ErrorPayload Unit := do
  rejectIf (e.updatedAt < e.createdAt)
    (invalid "execution.updated_at must not precede created_at")
  checkSome e.recoveryEvidence fun r => do
    rejectIf (¬ (e.createdAt ≤ r.val.occurredAt ∧ r.val.occurredAt ≤ e.updatedAt))
      (invalid "execution recovery_evidence.occurred_at must be within created_at and updated_at")
    checkSome r.val.motionSnapshot fun s =>
      rejectIf (¬ (e.createdAt ≤ s.val.observedAt ∧ s.val.observedAt ≤ r.val.occurredAt))
        (invalid "motion snapshot must be within the execution recovery timeline")
  checkSome e.retirement fun r =>
    rejectIf (¬ (e.createdAt ≤ r.val.retiredAt ∧ r.val.retiredAt ≤ e.updatedAt))
      (invalid "execution retirement.retired_at must be within created_at and updated_at")

/-- The checks of the recovery state: evidence and intent stand exactly where they belong. -/
def checkRecovery : Except ErrorPayload Unit :=
  if e.phase = .recoveryRequired then
    match e.recoveryEvidence, e.recoveryIntent with
    | none, _ => .error (invalid "RECOVERY_REQUIRED must carry recovery evidence")
    | some _, none =>
        .error (invalid "RECOVERY_REQUIRED must carry its milestone-derived recovery intent")
    | some r, some intent => do
        rejectIf (r.val.streamMilestone ≠ e.streamMilestone)
          (invalid "execution stream milestone must match recovery evidence")
        rejectIf (e.predecessorExecutionId = none ∧ r.val.recoveryIntent ≠ intent)
          (invalid "initial execution recovery intent must match recovery evidence")
  else do
    rejectIf (e.recoveryEvidence ≠ none)
      (invalid "recovery evidence is only valid in RECOVERY_REQUIRED")
    rejectIf (e.predecessorExecutionId = none ∧ e.recoveryIntent ≠ none)
      (invalid "recovery intent outside RECOVERY_REQUIRED requires predecessor evidence")

/-- The phases of a successor that only homes the machine. -/
def postStreamPhases : List MachinePhase :=
  [.preparingSession, .awaitingHomeApproval, .homing, .completed]

/-- The checks that keep a successor in its part of the phase graph. -/
def validateSuccessorSubgraph (intent : RecoveryIntent) : Except ErrorPayload Unit := do
  rejectIf (intent = .streamAmbiguousReleaseOnly)
    (invalid "STREAM_AMBIGUOUS_RELEASE_ONLY is release-only and cannot bind a successor")
  if e.phase = .recoveryRequired then
    .ok ()
  else do
    rejectIf (intent = .preStreamRestart ∧ e.streamMilestone = .streamConfirmed ∧
        e.phase ∉ [MachinePhase.awaitingHomeZApproval, .homingZ, .completed])
      (invalid "confirmed stream milestone cannot re-enter PRE_STREAM_RESTART phases")
    rejectIf (intent = .postStreamSafeHome ∧ e.streamMilestone ≠ .streamConfirmed)
      (invalid "POST_STREAM_SAFE_HOME requires the confirmed stream milestone")
    rejectIf (intent = .postStreamSafeHome ∧ e.phase ∉ postStreamPhases)
      (invalid "POST_STREAM_SAFE_HOME execution left its safe-home subgraph")

/-- The checks of a successor: it has an intent, and stays in its part of the graph. -/
def checkSuccessor : Except ErrorPayload Unit :=
  match e.predecessorExecutionId, e.recoveryIntent with
  | none, _ => .ok ()
  | some _, none => .error (invalid "recovery successor requires a recovery intent")
  | some _, some intent => e.validateSuccessorSubgraph intent

/-- Whether the execution is a successor that only homes the machine. -/
def isSafeHomeSuccessor : Bool :=
  e.predecessorExecutionId ≠ none ∧ e.recoveryIntent = some .postStreamSafeHome

/-- The phases an execution with a confirmed stream may be in. -/
def confirmedPhases : List MachinePhase :=
  [.awaitingHomeApproval, .homing, .awaitingHomeZApproval, .homingZ, .completed,
    .recoveryRequired] ++ if e.isSafeHomeSuccessor then [.preparingSession] else []

/-- The checks of the phase against the milestone. -/
def validatePhaseMilestone : Except ErrorPayload Unit := do
  rejectIf (e.streamMilestone = .firstWritePossible ∧
      e.phase ∉ [MachinePhase.streaming, .recoveryRequired])
    (invalid "first-write milestone is only valid while STREAMING or in recovery")
  rejectIf (e.streamMilestone = .streamConfirmed ∧ e.phase ∉ e.confirmedPhases)
    (invalid "confirmed stream milestone contradicts the current phase")
  rejectIf (e.streamMilestone = .streamConfirmed ∧
      e.phase ∈ [MachinePhase.awaitingHomeApproval, .homing] ∧ e.isSafeHomeSuccessor = false)
    (invalid "confirmed HOME phases require an exact POST_STREAM_SAFE_HOME successor")
  rejectIf (e.streamMilestone ≠ .streamConfirmed ∧
      e.phase ∈ [MachinePhase.awaitingHomeZApproval, .homingZ, .completed])
    (invalid "post-stream phase requires the confirmed stream milestone")

/-- The checks of the constructor. -/
def postInit : Except ErrorPayload Unit := do
  e.checkFields
  e.checkEvidence
  e.checkRetirement
  e.checkTimeline
  e.checkRecovery
  e.checkSuccessor
  e.validatePhaseMilestone

variable {e}

/-- A record is constructed exactly when every group of checks passes. -/
theorem postInit_eq_ok_iff :
  e.postInit = .ok () ↔
    e.checkFields = .ok () ∧ e.checkEvidence = .ok () ∧ e.checkRetirement = .ok () ∧
      e.checkTimeline = .ok () ∧ e.checkRecovery = .ok () ∧ e.checkSuccessor = .ok () ∧
      e.validatePhaseMilestone = .ok ()
  := by
  simp [postInit]

end MachineExecution.Fields

/-- A machine execution. -/
abbrev MachineExecution := { e : MachineExecution.Fields // e.postInit = .ok () }

/-- Build a machine execution from its fields. -/
def MachineExecution.build (e : MachineExecution.Fields) : Except ErrorPayload MachineExecution :=
  acceptIf MachineExecution.Fields.postInit e

namespace MachineExecution

variable {e : MachineExecution}

/-! ### What a constructed execution has established -/

/-- The retirement of an execution names the execution. -/
theorem retirement_executionId {r : OwnerRetirementEvidence} (h : e.val.retirement = some r) :
  r.val.predecessorExecutionId = e.val.executionId
  := by
  have hr := (Fields.postInit_eq_ok_iff.mp e.property).2.2.1
  simp only [Fields.checkRetirement, Except.unit_bind_eq_ok_iff, checkSome_eq_ok_iff,
    rejectIf_eq_ok_iff] at hr
  exact Decidable.of_not_not (hr.1 r h).1

/-- An execution retired as completed is in phase `COMPLETED`. -/
theorem phase_of_completed_retirement {r : OwnerRetirementEvidence}
    (h : e.val.retirement = some r) (hd : r.val.disposition = .completed) :
  e.val.phase = .completed
  := by
  have hr := (Fields.postInit_eq_ok_iff.mp e.property).2.2.1
  simp only [Fields.checkRetirement, Except.unit_bind_eq_ok_iff, checkSome_eq_ok_iff,
    rejectIf_eq_ok_iff] at hr
  have hc := (hr.1 r h).2.1
  simpa [hd] using hc

/-- An execution retired otherwise is in phase `RECOVERY_REQUIRED`. -/
theorem phase_of_recovery_retirement {r : OwnerRetirementEvidence}
    (h : e.val.retirement = some r) (hd : r.val.disposition ≠ .completed) :
  e.val.phase = .recoveryRequired
  := by
  have hr := (Fields.postInit_eq_ok_iff.mp e.property).2.2.1
  simp only [Fields.checkRetirement, Except.unit_bind_eq_ok_iff, checkSome_eq_ok_iff,
    rejectIf_eq_ok_iff] at hr
  have hc := (hr.1 r h).2.2
  cases hdis : r.val.disposition with
  | completed => exact absurd hdis hd
  | released => simpa [hdis] using hc
  | transferred => simpa [hdis] using hc

/-- A completed execution is retired as completed. -/
theorem retirement_of_completed (h : e.val.phase = .completed) :
  ∃ r, e.val.retirement = some r ∧ r.val.disposition = .completed
  := by
  have hr := (Fields.postInit_eq_ok_iff.mp e.property).2.2.1
  simp only [Fields.checkRetirement, Except.unit_bind_eq_ok_iff, rejectIf_eq_ok_iff] at hr
  apply Fields.retirementDisposition_eq_some_iff.mp
  by_contra hne
  exact hr.2 ⟨h, hne⟩

/-- An execution that is neither completed nor in recovery is not retired. -/
theorem retirement_eq_none (hc : e.val.phase ≠ .completed) (hr : e.val.phase ≠ .recoveryRequired) :
  e.val.retirement = none
  := by
  cases h : e.val.retirement with
  | none => rfl
  | some r =>
      by_cases hd : r.val.disposition = .completed
      · exact absurd (phase_of_completed_retirement h hd) hc
      · exact absurd (phase_of_recovery_retirement h hd) hr

/-- An execution is not updated before it is created. -/
theorem createdAt_le_updatedAt (e : MachineExecution) :
  e.val.createdAt ≤ e.val.updatedAt
  := by
  have ht := (Fields.postInit_eq_ok_iff.mp e.property).2.2.2.1
  simp only [Fields.checkTimeline, Except.unit_bind_eq_ok_iff, rejectIf_eq_ok_iff] at ht
  exact Int.not_lt.mp ht.1

/-- An execution retires within its own timeline. -/
theorem retiredAt_le_updatedAt {r : OwnerRetirementEvidence} (h : e.val.retirement = some r) :
  e.val.createdAt ≤ r.val.retiredAt ∧ r.val.retiredAt ≤ e.val.updatedAt
  := by
  have ht := (Fields.postInit_eq_ok_iff.mp e.property).2.2.2.1
  simp only [Fields.checkTimeline, Except.unit_bind_eq_ok_iff, checkSome_eq_ok_iff,
    rejectIf_eq_ok_iff] at ht
  exact Decidable.of_not_not (ht.2.2 r h)

/-- An execution in recovery carries evidence of its own milestone, and an initial one also
the intent of that evidence. -/
theorem evidence_of_recovery (h : e.val.phase = .recoveryRequired) :
  ∃ r intent, e.val.recoveryEvidence = some r ∧ e.val.recoveryIntent = some intent ∧
    r.val.streamMilestone = e.val.streamMilestone ∧
    (e.val.predecessorExecutionId = none → r.val.recoveryIntent = intent)
  := by
  have hr := (Fields.postInit_eq_ok_iff.mp e.property).2.2.2.2.1
  simp only [Fields.checkRecovery, h, if_true] at hr
  split at hr
  · cases hr
  · cases hr
  · rename_i r intent he hi
    simp only [Except.unit_bind_eq_ok_iff, rejectIf_eq_ok_iff] at hr
    refine ⟨r, intent, he, hi, Decidable.of_not_not hr.1, ?_⟩
    intro hp
    simpa [hp] using hr.2

/-- An execution outside recovery carries no evidence. -/
theorem evidence_eq_none (h : e.val.phase ≠ .recoveryRequired) :
  e.val.recoveryEvidence = none
  := by
  have hr := (Fields.postInit_eq_ok_iff.mp e.property).2.2.2.2.1
  simp only [Fields.checkRecovery, h, if_false, Except.unit_bind_eq_ok_iff,
    rejectIf_eq_ok_iff] at hr
  exact Decidable.of_not_not hr.1

/-- An initial execution outside recovery has no intent. -/
theorem intent_eq_none (h : e.val.phase ≠ .recoveryRequired)
    (hp : e.val.predecessorExecutionId = none) :
  e.val.recoveryIntent = none
  := by
  have hr := (Fields.postInit_eq_ok_iff.mp e.property).2.2.2.2.1
  simp only [Fields.checkRecovery, h, if_false, Except.unit_bind_eq_ok_iff,
    rejectIf_eq_ok_iff] at hr
  simpa [hp] using hr.2

/-- A successor has an intent that may bind a successor, and passes the checks of its part
of the graph. -/
theorem subgraph_of_successor {p : String} (hp : e.val.predecessorExecutionId = some p) :
  ∃ intent, e.val.recoveryIntent = some intent ∧
    e.val.validateSuccessorSubgraph intent = .ok ()
  := by
  have hs := (Fields.postInit_eq_ok_iff.mp e.property).2.2.2.2.2.1
  simp only [Fields.checkSuccessor, hp] at hs
  split at hs
  · rename_i h
    cases h
  · cases hs
  · rename_i intent _ hi
    exact ⟨intent, hi, hs⟩

/-- A successor that only homes the machine stays in its phases until it needs recovery. -/
theorem phase_of_safeHome (h : e.val.isSafeHomeSuccessor = true)
    (hr : e.val.phase ≠ .recoveryRequired) :
  e.val.phase ∈ Fields.postStreamPhases
  := by
  simp only [Fields.isSafeHomeSuccessor, ne_eq, decide_eq_true_eq] at h
  obtain ⟨p, hp⟩ := Option.ne_none_iff_exists'.mp h.1
  obtain ⟨intent, hi, hs⟩ := subgraph_of_successor hp
  simp only [Fields.validateSuccessorSubgraph, hr, if_false, Except.unit_bind_eq_ok_iff,
    rejectIf_eq_ok_iff] at hs
  have hpost : intent = .postStreamSafeHome := Option.some.inj (hi.symm.trans h.2)
  by_contra hphase
  exact hs.2.2.2 ⟨hpost, hphase⟩

/-- Before the stream is confirmed no execution is in a phase after it. -/
theorem milestone_of_postStream
    (h : e.val.phase ∈ [MachinePhase.awaitingHomeZApproval, .homingZ, .completed]) :
  e.val.streamMilestone = .streamConfirmed
  := by
  have hm := (Fields.postInit_eq_ok_iff.mp e.property).2.2.2.2.2.2
  simp only [Fields.validatePhaseMilestone, Except.unit_bind_eq_ok_iff, rejectIf_eq_ok_iff] at hm
  by_contra hne
  exact hm.2.2.2 ⟨hne, h⟩

/-- A write is possible only while streaming, or in recovery. -/
theorem phase_of_firstWrite (h : e.val.streamMilestone = .firstWritePossible) :
  e.val.phase = .streaming ∨ e.val.phase = .recoveryRequired
  := by
  have hm := (Fields.postInit_eq_ok_iff.mp e.property).2.2.2.2.2.2
  simp only [Fields.validatePhaseMilestone, Except.unit_bind_eq_ok_iff, rejectIf_eq_ok_iff] at hm
  have hphase : e.val.phase ∈ [MachinePhase.streaming, .recoveryRequired] := by
    by_contra hne
    exact hm.1 ⟨h, hne⟩
  simpa using hphase

/-- A confirmed stream leaves only the phases after it, and those of a successor that homes
the machine. -/
theorem phase_of_confirmed (h : e.val.streamMilestone = .streamConfirmed) :
  e.val.phase ∈ e.val.confirmedPhases
  := by
  have hm := (Fields.postInit_eq_ok_iff.mp e.property).2.2.2.2.2.2
  simp only [Fields.validatePhaseMilestone, Except.unit_bind_eq_ok_iff, rejectIf_eq_ok_iff] at hm
  by_contra hphase
  exact hm.2.1 ⟨h, hphase⟩

end MachineExecution

/-! ### Consecutive revisions -/

/-- The fields of an execution that never change. -/
structure PermanentBindings where
  schemaVersion : Nat
  jobId : String
  readyRevision : Nat
  gcodeSha256 : String
  applicationVersion : String
  applicationDigest : String
  machineDigest : String
  providerDigest : String
  serviceEpoch : String
  machineSessionEpoch : String
  predecessorExecutionId : Option String
  deriving DecidableEq, Repr

/-- The permanent fields of an execution. -/
def MachineExecution.Fields.permanentBindings (e : MachineExecution.Fields) :
    PermanentBindings where
  schemaVersion := e.schemaVersion
  jobId := e.jobId
  readyRevision := e.readyRevision
  gcodeSha256 := e.gcodeSha256
  applicationVersion := e.applicationVersion
  applicationDigest := e.applicationDigest
  machineDigest := e.machineDigest
  providerDigest := e.providerDigest
  serviceEpoch := e.serviceEpoch
  machineSessionEpoch := e.machineSessionEpoch
  predecessorExecutionId := e.predecessorExecutionId

/-- The checks on identity, time and permanent fields between two revisions. -/
def checkBindingProgression (prior successor : MachineExecution) : Except ErrorPayload Unit := do
  rejectIf (successor.val.executionId ≠ prior.val.executionId ∨
      successor.val.revision ≠ prior.val.revision + 1)
    (invalid "machine execution revision must increase exactly one")
  rejectIf (successor.val.createdAt ≠ prior.val.createdAt ∨
      successor.val.updatedAt < prior.val.updatedAt)
    (invalid "machine execution timestamps must progress monotonically")
  rejectIf (successor.val.permanentBindings ≠ prior.val.permanentBindings)
    (invalid "machine execution permanent binding changed across revisions")
  checkSome successor.val.retirement fun r =>
    rejectIf (¬ (prior.val.updatedAt ≤ r.val.retiredAt ∧
        r.val.retiredAt ≤ successor.val.updatedAt))
      (invalid "retirement.retired_at must be within the committing revision timeline")
  rejectIf (prior.val.retirement ≠ none ∧ successor.val.retirement ≠ prior.val.retirement)
    (invalid "retirement evidence is permanent once recorded")

/-- The checks on a revision after `RECOVERY_REQUIRED`: it only retires. -/
def checkRetirementProgression (prior successor : MachineExecution) :
    Except ErrorPayload Unit := do
  rejectIf (successor.val.phase ≠ .recoveryRequired ∨
      successor.val.streamMilestone ≠ prior.val.streamMilestone ∨
      successor.val.recoveryIntent ≠ prior.val.recoveryIntent ∨
      successor.val.recoveryEvidence ≠ prior.val.recoveryEvidence)
    (invalid "RECOVERY_REQUIRED evidence is frozen for the execution")
  rejectIf (prior.val.retirement ≠ none ∨ successor.val.retirement = none)
    (invalid "RECOVERY_REQUIRED permits exactly one monotonic retirement change")

/-- The check of the intent between two revisions: that of a successor is frozen, and that
of an initial execution changes only when it enters recovery. -/
def checkIntentProgression (prior successor : MachineExecution) : Except ErrorPayload Unit :=
  if prior.val.predecessorExecutionId ≠ none then
    rejectIf (successor.val.recoveryIntent ≠ prior.val.recoveryIntent)
      (invalid "recovery successor intent is a frozen predecessor-derived binding")
  else
    rejectIf (successor.val.recoveryIntent ≠ prior.val.recoveryIntent ∧
        (successor.val.phase ≠ .recoveryRequired ∨
          (successor.val.recoveryEvidence.any fun r =>
            successor.val.recoveryIntent = some r.val.recoveryIntent) = false))
      (invalid "initial execution recovery intent can change only on derived recovery entry")

/-- The check of the phase between two revisions. -/
def checkPhaseProgression (prior successor : MachineExecution) : Except ErrorPayload Unit :=
  if successor.val.phase = prior.val.phase then
    .ok ()
  else if successor.val.phase = .recoveryRequired then
    rejectIf (prior.val.phase ∈ [MachinePhase.recoveryRequired, .completed])
      (invalid "terminal phase cannot re-enter recovery")
  else
    rejectIf (¬ (MachineAction.all.any fun action =>
        allowedPhaseTransition prior.val.phase action successor.val.phase
          (if prior.val.predecessorExecutionId ≠ none then prior.val.recoveryIntent else none)))
      (invalid "machine execution phase must follow one legal edge without a phase jump")

/-- Accept `successor` as the revision after `prior`. -/
def ensureRevisionProgression (prior successor : MachineExecution) :
    Except ErrorPayload Unit := do
  checkBindingProgression prior successor
  if prior.val.phase = .recoveryRequired then
    checkRetirementProgression prior successor
  else do
    rejectIf (allowedStreamMilestoneTransition prior.val.streamMilestone
        successor.val.streamMilestone = false)
      (invalid "stream milestone must advance monotonically without skipping")
    rejectIf (successor.val.phase = .completed ∧
        successor.val.retirementDisposition ≠ some .completed)
      (invalid "COMPLETED progression requires immutable completed retirement evidence")
    checkIntentProgression prior successor
    checkPhaseProgression prior successor

end DrawingMachine
