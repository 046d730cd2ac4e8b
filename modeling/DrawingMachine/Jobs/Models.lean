import DrawingMachine.Machine.Models

/-!
# Jobs

The job a machine execution draws, as far as the machine reads and writes it: its record
with the frozen snapshot of what is ready to run, the outcome a machine execution leaves
on it, and the event and audit record of that outcome. The documents of a job that are
stored and compared but never looked into (its request, the results of planning and of
the static check, the details of a blocker) are kept as their canonical texts.
-/

namespace DrawingMachine

/-- The state of a job. -/
inductive JobState where
  | queued | preparingImage | imageReady | planningPaths | pathPlanReady | buildingGcode
  | validatingGcode | readyToRun | blocked | failed | cancelled | recoveryRequired | completed
  deriving DecidableEq, Repr

/-- The kind of a job. -/
inductive JobKind where
  | offlineWorkflow | gcodeCheck
  deriving DecidableEq, Repr

/-- The name of a job state. -/
def JobState.value : JobState → String
  | .queued => "QUEUED"
  | .preparingImage => "PREPARING_IMAGE"
  | .imageReady => "IMAGE_READY"
  | .planningPaths => "PLANNING_PATHS"
  | .pathPlanReady => "PATH_PLAN_READY"
  | .buildingGcode => "BUILDING_GCODE"
  | .validatingGcode => "VALIDATING_GCODE"
  | .readyToRun => "READY_TO_RUN"
  | .blocked => "BLOCKED"
  | .failed => "FAILED"
  | .cancelled => "CANCELLED"
  | .recoveryRequired => "RECOVERY_REQUIRED"
  | .completed => "COMPLETED"

/-- The name of a job kind. -/
def JobKind.value : JobKind → String
  | .offlineWorkflow => "OFFLINE_WORKFLOW"
  | .gcodeCheck => "GCODE_CHECK"

/-- Whether a job of the given kind can be in a state. -/
def jobStates : JobKind → JobState → Bool
  | .offlineWorkflow, _ => true
  | .gcodeCheck, state =>
      state ∈ [JobState.queued, .validatingGcode, .completed, .blocked, .failed, .cancelled]

/-! ### Field checks -/

/-- The error of the job models. -/
def jobInvalid (message : String) (details : List (String × String) := []) : ErrorPayload where
  code := "JOB_CONTRACT_INVALID"
  category := .input
  message := message
  retryable := false
  details := details

/-- The check of a text field of a job. -/
def validateString (value field : String) : Except ErrorPayload Unit :=
  rejectIf (value = "") (jobInvalid (field ++ " must not be empty") [("field", field)])

/-- The check of a text field of a job that may be absent. -/
def validateNullableString (value : Option String) (field : String) : Except ErrorPayload Unit :=
  checkSome value fun v => validateString v field

/-- The check of an integer field of a job. -/
def validateInt (value : Nat) (field : String) (minimum : Nat) : Except ErrorPayload Unit :=
  rejectIf (value < minimum)
    (jobInvalid (field ++ " must be at least " ++ toString minimum)
      [("field", field), ("minimum", toString minimum)])

/-- The check of a schema version of a job. -/
def validateSchemaVersion (value : Nat) (field : String) : Except ErrorPayload Unit := do
  validateInt value field 1
  rejectIf (value ≠ 1)
    (jobInvalid (field ++ " has unsupported schema version: " ++ toString value)
      [("field", field), ("expected", "1"), ("received", toString value)])

/-- The check of a digest field of a job. -/
def validateDigest (value field : String) : Except ErrorPayload Unit := do
  validateString value field
  rejectIf (¬ Sha256Hex value)
    (jobInvalid (field ++ " must be a lowercase SHA-256 digest") [("field", field)])

/-- A text field of a job passes exactly when it is not empty. -/
@[simp] theorem validateString_eq_ok_iff {value field : String} :
  validateString value field = .ok () ↔ value ≠ ""
  := by
  simp [validateString]

/-- An optional text field of a job passes exactly when its value is not empty. -/
@[simp] theorem validateNullableString_eq_ok_iff {value : Option String} {field : String} :
  validateNullableString value field = .ok () ↔ ∀ v, value = some v → v ≠ ""
  := by
  simp [validateNullableString]

/-- An integer field of a job passes exactly when it reaches its lower bound. -/
@[simp] theorem validateInt_eq_ok_iff {value minimum : Nat} {field : String} :
  validateInt value field minimum = .ok () ↔ minimum ≤ value
  := by
  simp [validateInt]

/-- A schema version of a job passes exactly when it is the supported one. -/
@[simp] theorem validateSchemaVersion_eq_ok_iff {value : Nat} {field : String} :
  validateSchemaVersion value field = .ok () ↔ value = 1
  := by
  simp only [validateSchemaVersion, Except.unit_bind_eq_ok_iff, validateInt_eq_ok_iff,
    rejectIf_eq_ok_iff]
  omega

/-- A path that is relative, has no dot segment and is written in its canonical form. -/
def CanonicalRelativePath (path : String) : Prop :=
  '\\' ∉ path.toList ∧
    ∀ part ∈ path.toList.splitOn '/', part ≠ [] ∧ part ≠ ['.'] ∧ part ≠ ['.', '.']

instance (path : String) : Decidable (CanonicalRelativePath path) :=
  inferInstanceAs (Decidable (_ ∧ _))

/-- The check of a path field of a job. -/
def validateRelativePath (value field : String) : Except ErrorPayload Unit := do
  validateString value field
  rejectIf (¬ CanonicalRelativePath value)
    (jobInvalid (field ++ " must be a canonical relative artifact path") [("field", field)])

/-! ### The frozen snapshot -/

/-- A stored artifact. -/
structure ArtifactRef.Fields where
  role : String
  relativePath : String
  sha256 : String
  sizeBytes : Nat
  mediaType : String
  deriving DecidableEq, Repr

/-- The checks of an artifact. -/
def ArtifactRef.Fields.postInit (a : ArtifactRef.Fields) : Except ErrorPayload Unit := do
  validateString a.role "artifact.role"
  validateRelativePath a.relativePath "artifact.relative_path"
  validateDigest a.sha256 "artifact.sha256"
  validateString a.mediaType "artifact.media_type"

/-- An artifact. -/
abbrev ArtifactRef := { a : ArtifactRef.Fields // a.postInit = .ok () }

/-- The configuration a job was made with. -/
structure ConfigSnapshot.Fields where
  machineProfile : String
  providerProfile : String
  applicationSchemaVersion : Nat
  machineSchemaVersion : Nat
  providerSchemaVersion : Nat
  applicationDigest : String
  machineDigest : String
  providerDigest : String
  deriving DecidableEq, Repr

/-- The checks of a configuration. -/
def ConfigSnapshot.Fields.postInit (c : ConfigSnapshot.Fields) : Except ErrorPayload Unit := do
  validateString c.machineProfile "config.machine_profile"
  validateString c.providerProfile "config.provider_profile"
  validateSchemaVersion c.applicationSchemaVersion "config.application_schema_version"
  validateSchemaVersion c.machineSchemaVersion "config.machine_schema_version"
  validateSchemaVersion c.providerSchemaVersion "config.provider_schema_version"
  validateDigest c.applicationDigest "config.application_digest"
  validateDigest c.machineDigest "config.machine_digest"
  validateDigest c.providerDigest "config.provider_digest"

/-- A configuration. -/
abbrev ConfigSnapshot := { c : ConfigSnapshot.Fields // c.postInit = .ok () }

/-- What is ready to run. -/
structure ReadyToRunSnapshot.Fields where
  schemaVersion : Nat
  jobId : String
  jobRevision : Nat
  gcode : ArtifactRef
  artifacts : List ArtifactRef
  staticResult : String
  sendPlan : String
  readiness : String
  config : ConfigSnapshot
  planningParameters : String
  applicationVersion : String
  deriving DecidableEq, Repr

/-- The checks of a snapshot. -/
def ReadyToRunSnapshot.Fields.postInit (s : ReadyToRunSnapshot.Fields) :
    Except ErrorPayload Unit := do
  validateSchemaVersion s.schemaVersion "ready_snapshot.schema_version"
  validateString s.jobId "ready_snapshot.job_id"
  validateInt s.jobRevision "ready_snapshot.job_revision" 1
  rejectIf (s.gcode.val.role ≠ "gcode")
    (jobInvalid "ready_snapshot.gcode must have role gcode")
  rejectIf (¬ (s.artifacts.map fun a => a.val.role).Nodup)
    (jobInvalid "ready_snapshot contains a duplicate artifact role")
  rejectIf ("gcode" ∈ s.artifacts.map fun a => a.val.role)
    (jobInvalid "ready_snapshot.artifacts must not contain the dedicated gcode role")
  validateString s.applicationVersion "ready_snapshot.application_version"

/-- A snapshot of what is ready to run. -/
abbrev ReadyToRunSnapshot := { s : ReadyToRunSnapshot.Fields // s.postInit = .ok () }

/-! ### Job records -/

/-- The error of a failed job, with the request and the job it names. -/
structure JobError where
  payload : ErrorPayload
  requestId : Option String
  jobId : Option String
  deriving DecidableEq, Repr

/-- The reason why a job is blocked. -/
structure JobBlocker.Fields where
  code : String
  category : ErrorCategory
  message : String
  details : String
  deriving DecidableEq, Repr

/-- The checks of a blocker. -/
def JobBlocker.Fields.postInit (b : JobBlocker.Fields) : Except ErrorPayload Unit := do
  validateString b.code "blocker.code"
  validateString b.message "blocker.message"

/-- A blocker. -/
abbrev JobBlocker := { b : JobBlocker.Fields // b.postInit = .ok () }

/-- The check of the texts of an error. -/
def checkError (context : String) (e : JobError) : Except ErrorPayload Unit := do
  validateString e.payload.code (context ++ ".code")
  validateString e.payload.message (context ++ ".message")
  validateNullableString e.requestId (context ++ ".request_id")
  validateNullableString e.jobId (context ++ ".job_id")

/-- The checks of the payloads of a job or of a transition against the state. A cancelled
job may keep its snapshot, and a job with the outcome of a machine execution has to. -/
def validatedStatePayloads (context : String) (retainOnCancel retainOutcome : Bool)
    (state : JobState) (blocker : Option JobBlocker) (error : Option JobError)
    (readySnapshot : Option ReadyToRunSnapshot) : Except ErrorPayload Unit := do
  checkSome error (checkError (context ++ ".error"))
  rejectIf (¬ (state = .blocked ↔ blocker ≠ none))
    (jobInvalid (context ++ " BLOCKED state must carry exactly one blocker"))
  rejectIf (¬ (state = .failed ↔ error ≠ none))
    (jobInvalid (context ++ " FAILED state must carry exactly one error"))
  let machineOutcome := retainOutcome = true ∧ state ∈ [JobState.completed, .recoveryRequired]
  rejectIf (((state = .readyToRun ∨ machineOutcome) ∧ readySnapshot = none) ∨
      (¬ (state = .readyToRun ∨ machineOutcome ∨
          (retainOnCancel = true ∧ state = .cancelled)) ∧ readySnapshot ≠ none))
    (jobInvalid (context ++ " READY_TO_RUN, COMPLETED, and RECOVERY_REQUIRED states must " ++
      "retain exactly one ready snapshot"))

/-- The record of a job. -/
structure JobRecord.Fields where
  schemaVersion : Nat
  jobId : String
  kind : JobKind
  name : String
  state : JobState
  revision : Nat
  request : String
  config : ConfigSnapshot
  blocker : Option JobBlocker
  error : Option JobError
  readySnapshot : Option ReadyToRunSnapshot
  createdAt : Timestamp
  updatedAt : Timestamp
  deriving DecidableEq, Repr

namespace JobRecord.Fields

variable (j : JobRecord.Fields)

/-- The checks of the payloads of a job against its state. -/
def checkStatePayloads : Except ErrorPayload Unit :=
  validatedStatePayloads "job" true (j.kind = .offlineWorkflow) j.state j.blocker j.error
    j.readySnapshot

/-- The checks of the snapshot of a job. -/
def checkSnapshot : Except ErrorPayload Unit :=
  checkSome j.readySnapshot fun s =>
    rejectIf (s.val.jobId ≠ j.jobId ∨
        ¬ (if j.state = .readyToRun then s.val.jobRevision = j.revision
          else s.val.jobRevision < j.revision))
      (jobInvalid "job ready snapshot must match job ID and its immutable ready revision")

/-- The checks of a job. -/
def postInit : Except ErrorPayload Unit := do
  validateSchemaVersion j.schemaVersion "job.schema_version"
  validateString j.jobId "job.job_id"
  validateString j.name "job.name"
  rejectIf (jobStates j.kind j.state = false)
    (jobInvalid (j.kind.value ++ " jobs cannot use the " ++ j.state.value ++ " state"))
  j.checkStatePayloads
  checkSome j.error fun e =>
    rejectIf (e.jobId ≠ some j.jobId)
      (jobInvalid "job.error.job_id must explicitly match job.job_id")
  j.checkSnapshot
  rejectIf (j.updatedAt < j.createdAt)
    (jobInvalid "job.updated_at must not precede job.created_at")

end JobRecord.Fields

/-- A job. -/
abbrev JobRecord := { j : JobRecord.Fields // j.postInit = .ok () }

/-- Build a job from its fields. -/
def JobRecord.build (j : JobRecord.Fields) : Except ErrorPayload JobRecord :=
  acceptIf JobRecord.Fields.postInit j

/-! ### The outcome of a machine execution -/

/-- What a machine execution does to its job. -/
structure MachineJobOutcomeTransition.Fields where
  jobId : String
  expectedRevision : Nat
  resultState : JobState
  eventType : String
  readySnapshot : ReadyToRunSnapshot
  deriving DecidableEq, Repr

/-- The checks of the outcome on the job. -/
def MachineJobOutcomeTransition.Fields.postInit (t : MachineJobOutcomeTransition.Fields) :
    Except ErrorPayload Unit := do
  validateString t.jobId "machine_outcome.job_id"
  validateInt t.expectedRevision "machine_outcome.expected_revision" 1
  rejectIf (t.resultState ∉ [JobState.completed, .recoveryRequired])
    (jobInvalid "machine outcome must be COMPLETED or RECOVERY_REQUIRED")
  validateString t.eventType "machine_outcome.event_type"
  rejectIf (t.readySnapshot.val.jobId ≠ t.jobId)
    (jobInvalid "machine outcome ready snapshot must match job ID")
  rejectIf (t.expectedRevision + 1 ≤ t.readySnapshot.val.jobRevision)
    (jobInvalid "machine outcome must retain an earlier immutable ready revision")

/-- The outcome on the job. -/
abbrev MachineJobOutcomeTransition :=
  { t : MachineJobOutcomeTransition.Fields // t.postInit = .ok () }

/-- How an execution ended. -/
inductive MachineOutcomeKind where
  | completed | recoveryRequired
  deriving DecidableEq, Repr

/-- The phase an execution ends in. -/
def MachineOutcomeKind.phase : MachineOutcomeKind → MachinePhase
  | .completed => .completed
  | .recoveryRequired => .recoveryRequired

/-- The state an outcome leaves the job in. -/
def MachineOutcomeKind.jobState : MachineOutcomeKind → JobState
  | .completed => .completed
  | .recoveryRequired => .recoveryRequired

/-- The outcome of an execution. -/
structure MachineOutcome.Fields where
  schemaVersion : Nat
  executionId : String
  jobId : String
  executionRevision : Nat
  kind : MachineOutcomeKind
  readySnapshot : ReadyToRunSnapshot
  recoveryEvidence : Option MachineRecoveryEvidence
  occurredAt : Timestamp
  deriving DecidableEq, Repr

/-- The checks of an outcome. -/
def MachineOutcome.Fields.postInit (o : MachineOutcome.Fields) : Except ErrorPayload Unit := do
  checkSchemaVersion o.schemaVersion "outcome.schema_version"
    (invalidField "outcome schema version is unsupported" "outcome.schema_version")
  checkString o.executionId "outcome.execution_id"
  checkString o.jobId "outcome.job_id"
  checkInteger o.executionRevision "outcome.execution_revision" 1
  rejectIf (o.readySnapshot.val.jobId ≠ o.jobId)
    (invalid "outcome ready snapshot must match job ID")
  rejectIf (¬ (o.kind = .recoveryRequired ↔ o.recoveryEvidence ≠ none))
    (invalid "only RECOVERY_REQUIRED outcomes carry recovery evidence")
  checkSome o.recoveryEvidence fun r => do
    rejectIf (r.val.executionId ≠ o.executionId)
      (invalid "outcome recovery evidence must match execution ID")
    rejectIf (o.occurredAt < r.val.occurredAt)
      (invalid "outcome.occurred_at must not precede recovery evidence")

/-- The outcome of an execution. -/
abbrev MachineOutcome := { o : MachineOutcome.Fields // o.postInit = .ok () }

/-! ### Events of a job -/

/-- Who asked for something: a peer with its credentials, or the service itself. -/
inductive RequesterIdentity where
  | localPeer (pid uid gid : Nat)
  | service
  deriving DecidableEq, Repr

/-- The name of the kind of a requester. -/
def RequesterIdentity.requesterType : RequesterIdentity → String
  | .localPeer _ _ _ => "LOCAL_PEER"
  | .service => "SERVICE"

/-- An event of a job. The payload of the events modelled here is the requester. -/
structure JobEvent.Fields where
  eventId : String
  jobId : String
  jobRevision : Nat
  eventType : String
  priorState : Option JobState
  resultState : JobState
  requestId : Option String
  requesterType : String
  requester : RequesterIdentity
  createdAt : Timestamp
  deriving DecidableEq, Repr

/-- The checks of an event of a job. -/
def JobEvent.Fields.postInit (e : JobEvent.Fields) : Except ErrorPayload Unit := do
  validateString e.eventId "event.event_id"
  validateString e.jobId "event.job_id"
  validateString e.eventType "event.event_type"
  validateNullableString e.requestId "event.request_id"
  validateString e.requesterType "event.requester_type"
  rejectIf (e.requesterType ∉ ["LOCAL_PEER", "SERVICE"])
    (jobInvalid "event.requester_type must be LOCAL_PEER or SERVICE"
      [("field", "event.requester_type"), ("value", e.requesterType)])
  rejectIf (e.requester.requesterType ≠ e.requesterType)
    (jobInvalid "event.requester_type must match payload requester identity")

/-- An event of a job. -/
abbrev JobEvent := { e : JobEvent.Fields // e.postInit = .ok () }

/-- The audit record of an event of a job. Only a review records an approval. -/
structure AuditRecord.Fields where
  eventId : String
  eventType : String
  requestId : Option String
  requester : RequesterIdentity
  jobId : String
  commandName : String
  commandEventType : String
  jobKind : JobKind
  priorState : Option JobState
  resultState : JobState
  errorCode : Option String
  blockerCode : Option String
  serviceVersion : String
  schemaVersion : Nat := 1
  protocolVersion : Nat := 1
  approval : Option (RequesterIdentity × Timestamp) := none
  deriving DecidableEq, Repr

/-- The checks of the audit record of an event of a job. -/
def AuditRecord.Fields.postInit (a : AuditRecord.Fields) : Except ErrorPayload Unit := do
  validateString a.eventId "audit.event_id"
  validateString a.eventType "audit.event_type"
  validateNullableString a.requestId "audit.request_id"
  validateSchemaVersion a.schemaVersion "audit.payload.schema_version"
  validateString a.jobId "audit.payload.job_id"
  validateString a.commandName "audit.payload.command_summary.name"
  validateString a.commandEventType "audit.payload.command_summary.event_type"
  validateNullableString a.errorCode "audit.payload.error_code"
  validateNullableString a.blockerCode "audit.payload.blocker_code"
  validateString a.serviceVersion "audit.payload.service_version"
  validateSchemaVersion a.protocolVersion "audit.payload.protocol_version"

/-- The audit record of an event of a job. -/
abbrev AuditRecord := { a : AuditRecord.Fields // a.postInit = .ok () }

end DrawingMachine
