import DrawingMachine.Documents.Contract
import DrawingMachine.Jobs.Models
import DrawingMachine.Machine.FromJson

/-!
# The documents of jobs

The records of `domain/jobs/models.py` with the JSON they carry: a job with its request, its
blocker or error and its snapshot of what is ready to run. A constructor runs the validators on
its fields in the order of the source, and a record is what its constructor has accepted.
-/

namespace DrawingMachine.Document.Jobs

open PyValue

variable {φ : Type} {α : Type}

/-! ### The validators, under the names of the source -/

/-- The entries of a JSON object. -/
abbrev object (value : PyValue φ) (context : PyStr) : Decoder (List (PyStr × PyValue φ)) :=
  jobs.object value context

/-- The check of the fields of an object. -/
abbrev requireExactFields (payload : List (PyStr × PyValue φ)) (expected : List String)
    (context : PyStr) : Decoder Unit :=
  jobs.requireExactFields payload expected context

/-- A text that is not empty. -/
abbrev validateString (value : PyValue φ) (field : PyStr) : Decoder String :=
  jobs.string value field

/-- A text that may be absent. -/
abbrev validateNullableString (value : PyValue φ) (field : PyStr) : Decoder (Option String) :=
  Contract.nullable (fun value => validateString value field) value

/-- An integer with a lower bound. -/
abbrev validateInt (value : PyValue φ) (field : PyStr) (minimum : ℕ) : Decoder ℕ :=
  jobs.integer value field minimum

/-- A truth value. -/
abbrev validateBool (value : PyValue φ) (field : PyStr) : Decoder Bool :=
  jobs.boolean value field

/-- The supported schema version. -/
abbrev validateSchemaVersion (value : PyValue φ) (field : PyStr) : Decoder ℕ :=
  jobs.schemaVersion value field

/-- A SHA-256 digest. -/
abbrev validateDigest (value : PyValue φ) (field : PyStr) : Decoder String :=
  jobs.digest value field

/-- A relative path. -/
abbrev validateRelativePath (value : PyValue φ) (field : PyStr) : Decoder String :=
  jobs.relative value field

/-- A JSON object that can be stored. -/
abbrev freezeJsonObject [PyFinite φ] (value : PyValue φ) (context : PyStr) :
    Decoder (PyValue φ) :=
  jobs.freezeObject value context

/-- The member of an enumeration. -/
abbrev parseEnum (members : List α) (name : α → String) (value : PyValue φ) (field : PyStr) :
    Decoder α :=
  jobs.enumeration members name value field

/-- Raise an error that names no field. -/
abbrev raiseInvalid (message : PyStr) : Decoder α := jobs.refuse message []

/-- Raise an error that names no field, when `bad` holds. -/
abbrev invalidIf (bad : Prop) [Decidable bad] (message : PyStr) : Decoder Unit :=
  jobs.invalidIf bad message

/-- The fields that would give a document authority over the hardware. -/
def hardwareAuthorityFields : List String :=
  ["approval", "arm_phrase", "authorization", "bridge_command", "bridge_commands",
    "hardware_authority", "serial_device", "serial_path"]

/-- The keys of a document that would give it authority over the hardware. -/
def forbiddenKeys (keys : List PyStr) : List PyStr :=
  Contract.sortedNames (keys.filter fun key => key ∈ hardwareAuthorityFields.map PyStr.ofString)

/-- Raise the error of keys that are forbidden. -/
def refuseForbidden (context : PyStr) (forbidden : List PyStr) : Decoder α :=
  jobs.refuse (context ++ PyStr.ofString " contains hardware authority fields: " ++
    Contract.joined forbidden) [("forbidden_fields", .arr (forbidden.map .str))]

mutual

/-- The check that a JSON value has no authority over the hardware. -/
def rejectHardwareAuthority (value : PyValue φ) (context : PyStr) : Decoder Unit :=
  match value with
  | .obj entries =>
      let forbidden := forbiddenKeys (entries.map Prod.fst)
      if forbidden ≠ [] then
        refuseForbidden context forbidden
      else
        rejectHardwareAuthorityEntries entries context
  | .arr items => rejectHardwareAuthorityItems items context
  | _ => .ok ()

/-- The check of the items of an array. -/
def rejectHardwareAuthorityItems (items : List (PyValue φ)) (context : PyStr) : Decoder Unit :=
  match items with
  | [] => .ok ()
  | item :: items => do
      rejectHardwareAuthority item (context ++ PyStr.ofString "[]")
      rejectHardwareAuthorityItems items context

/-- The check of the values of an object. -/
def rejectHardwareAuthorityEntries (entries : List (PyStr × PyValue φ)) (context : PyStr) :
    Decoder Unit :=
  match entries with
  | [] => .ok ()
  | (key, value) :: entries => do
      rejectHardwareAuthority value (context ++ PyStr.ofString "." ++ key)
      rejectHardwareAuthorityEntries entries context

end

/-! ### Artifacts and configurations -/

/-- The fields of an artifact. -/
structure ArtifactRef.Fields where
  role : String
  relativePath : String
  sha256 : String
  sizeBytes : ℕ
  mediaType : String
  deriving DecidableEq

/-- The checks of the constructor of an artifact. -/
def ArtifactRef.Fields.postInit (artifact : ArtifactRef.Fields) : Decoder Unit := do
  check (validateString (textField artifact.role) "artifact.role")
  check (validateRelativePath (textField artifact.relativePath) "artifact.relative_path")
  check (validateDigest (textField artifact.sha256) "artifact.sha256")
  check (validateInt (intField artifact.sizeBytes) "artifact.size_bytes" 0)
  check (validateString (textField artifact.mediaType) "artifact.media_type")

/-- A stored artifact. -/
def ArtifactRef := { artifact : ArtifactRef.Fields // artifact.postInit = .ok () }

/-- The names of the fields of an artifact. -/
def artifactFields : List String :=
  ["role", "relative_path", "sha256", "size_bytes", "media_type"]

/-- The document of an artifact. -/
def ArtifactRef.toJson (artifact : ArtifactRef) : PyValue φ :=
  record
    [("role", .str artifact.val.role),
      ("relative_path", .str artifact.val.relativePath),
      ("sha256", .str artifact.val.sha256),
      ("size_bytes", .int artifact.val.sizeBytes),
      ("media_type", .str artifact.val.mediaType)]

/-- An artifact, from its document. -/
def ArtifactRef.fromJson (payload : PyValue φ) : Decoder ArtifactRef := do
  let data ← object payload "artifact"
  requireExactFields data artifactFields "artifact"
  acceptIf ArtifactRef.Fields.postInit
    { role := ← validateString (valueAt data "role") "artifact.role"
      relativePath :=
        ← validateRelativePath (valueAt data "relative_path") "artifact.relative_path"
      sha256 := ← validateDigest (valueAt data "sha256") "artifact.sha256"
      sizeBytes := ← validateInt (valueAt data "size_bytes") "artifact.size_bytes" 0
      mediaType := ← validateString (valueAt data "media_type") "artifact.media_type" }

/-- The fields of the configuration of a job. -/
structure ConfigSnapshot.Fields where
  machineProfile : String
  providerProfile : String
  applicationSchemaVersion : ℕ
  machineSchemaVersion : ℕ
  providerSchemaVersion : ℕ
  applicationDigest : String
  machineDigest : String
  providerDigest : String

/-- The checks of the constructor of a configuration. -/
def ConfigSnapshot.Fields.postInit (config : ConfigSnapshot.Fields) : Decoder Unit := do
  check (validateString (textField config.machineProfile) "config.machine_profile")
  check (validateString (textField config.providerProfile) "config.provider_profile")
  check (validateSchemaVersion (intField config.applicationSchemaVersion)
    "config.application_schema_version")
  check (validateSchemaVersion (intField config.machineSchemaVersion)
    "config.machine_schema_version")
  check (validateSchemaVersion (intField config.providerSchemaVersion)
    "config.provider_schema_version")
  check (validateDigest (textField config.applicationDigest) "config.application_digest")
  check (validateDigest (textField config.machineDigest) "config.machine_digest")
  check (validateDigest (textField config.providerDigest) "config.provider_digest")

/-- The configuration of a job. -/
def ConfigSnapshot := { config : ConfigSnapshot.Fields // config.postInit = .ok () }

/-- The names of the fields of a configuration. -/
def configFields : List String :=
  ["machine_profile", "provider_profile", "application_schema_version", "machine_schema_version",
    "provider_schema_version", "application_digest", "machine_digest", "provider_digest"]

/-- The document of a configuration. -/
def ConfigSnapshot.toJson (config : ConfigSnapshot) : PyValue φ :=
  record
    [("machine_profile", .str config.val.machineProfile),
      ("provider_profile", .str config.val.providerProfile),
      ("application_schema_version", .int config.val.applicationSchemaVersion),
      ("machine_schema_version", .int config.val.machineSchemaVersion),
      ("provider_schema_version", .int config.val.providerSchemaVersion),
      ("application_digest", .str config.val.applicationDigest),
      ("machine_digest", .str config.val.machineDigest),
      ("provider_digest", .str config.val.providerDigest)]

/-- A configuration, from its document. -/
def ConfigSnapshot.fromJson (payload : PyValue φ) : Decoder ConfigSnapshot := do
  let data ← object payload "config snapshot"
  requireExactFields data configFields "config snapshot"
  acceptIf ConfigSnapshot.Fields.postInit
    { machineProfile :=
        ← validateString (valueAt data "machine_profile") "config.machine_profile"
      providerProfile :=
        ← validateString (valueAt data "provider_profile") "config.provider_profile"
      applicationSchemaVersion :=
        ← validateSchemaVersion (valueAt data "application_schema_version")
          "config.application_schema_version"
      machineSchemaVersion :=
        ← validateSchemaVersion (valueAt data "machine_schema_version")
          "config.machine_schema_version"
      providerSchemaVersion :=
        ← validateSchemaVersion (valueAt data "provider_schema_version")
          "config.provider_schema_version"
      applicationDigest :=
        ← validateDigest (valueAt data "application_digest") "config.application_digest"
      machineDigest := ← validateDigest (valueAt data "machine_digest") "config.machine_digest"
      providerDigest :=
        ← validateDigest (valueAt data "provider_digest") "config.provider_digest" }

/-! ### Blockers and errors -/

section

variable [PyFinite φ]

/-- The fields of a blocker. -/
structure JobBlocker.Fields (φ : Type) where
  code : String
  category : ErrorCategory
  message : String
  details : PyValue φ

/-- The checks of the constructor of a blocker. -/
def JobBlocker.Fields.postInit (blocker : JobBlocker.Fields φ) : Decoder Unit := do
  check (validateString (textField blocker.code) "blocker.code")
  check (validateString (textField blocker.message) "blocker.message")
  check (freezeJsonObject blocker.details "blocker.details")

/-- What blocks a job. -/
def JobBlocker (φ : Type) [PyFinite φ] :=
  { blocker : JobBlocker.Fields φ // blocker.postInit = .ok () }

/-- The names of the fields of a blocker. -/
def blockerFields : List String := ["code", "category", "message", "details"]

/-- The document of a blocker. -/
def JobBlocker.toJson (blocker : JobBlocker φ) : PyValue φ :=
  record
    [("code", .str blocker.val.code),
      ("category", .str (categoryValue blocker.val.category)),
      ("message", .str blocker.val.message),
      ("details", blocker.val.details)]

/-- A blocker, from its document. -/
def JobBlocker.fromJson (payload : PyValue φ) : Decoder (JobBlocker φ) := do
  let data ← object payload "job blocker"
  requireExactFields data blockerFields "job blocker"
  acceptIf JobBlocker.Fields.postInit
    { code := ← validateString (valueAt data "code") "blocker.code"
      category :=
        ← parseEnum categories categoryValue (valueAt data "category") "blocker.category"
      message := ← validateString (valueAt data "message") "blocker.message"
      details := ← freezeJsonObject (valueAt data "details") "blocker.details" }

/-- The error with the checks of its fields made. -/
def cloneError (value : ErrorPayload φ) (context : PyStr) : Decoder (ErrorPayload φ) := do
  let code ← validateString (textField value.code) (context ++ PyStr.ofString ".code")
  let message ← validateString (textField value.message) (context ++ PyStr.ofString ".message")
  let details ← freezeJsonObject value.details (context ++ PyStr.ofString ".details")
  let requestId ← validateNullableString (optionalField value.requestId : PyValue Empty)
    (context ++ PyStr.ofString ".request_id")
  let jobId ← validateNullableString (optionalField value.jobId : PyValue Empty)
    (context ++ PyStr.ofString ".job_id")
  return { value with
    code := code, message := message, details := details, requestId := requestId, jobId := jobId }

/-- The document of an error, with its checks made again. -/
def errorJson (value : ErrorPayload φ) : Decoder (PyValue φ) := do
  let error ← cloneError value "error"
  return errorDocument error

/-- An error, from its document. -/
def parseError (value : PyValue φ) : Decoder (ErrorPayload φ) := do
  let data ← object value "error payload"
  requireExactFields data errorFields "error payload"
  let error : ErrorPayload φ :=
    { code := ← validateString (valueAt data "code") "error.code"
      category := ← parseEnum categories categoryValue (valueAt data "category") "error.category"
      message := ← validateString (valueAt data "message") "error.message"
      retryable := ← validateBool (valueAt data "retryable") "error.retryable"
      details := ← freezeJsonObject (valueAt data "details") "error.details"
      requestId := ← validateNullableString (valueAt data "request_id") "error.request_id"
      jobId := ← validateNullableString (valueAt data "job_id") "error.job_id" }
  cloneError error "error"

/-! ### The snapshot of what is ready to run -/

/-- The fields of a snapshot. -/
structure ReadyToRunSnapshot.Fields (φ : Type) where
  schemaVersion : ℕ
  jobId : String
  jobRevision : ℕ
  gcode : ArtifactRef
  artifacts : List ArtifactRef
  staticResult : PyValue φ
  sendPlan : PyValue φ
  readiness : PyValue φ
  config : ConfigSnapshot
  planningParameters : PyValue φ
  applicationVersion : String

/-- The checks of the constructor of a snapshot. -/
def ReadyToRunSnapshot.Fields.postInit (snapshot : ReadyToRunSnapshot.Fields φ) :
    Decoder Unit := do
  check (validateSchemaVersion (intField snapshot.schemaVersion) "ready_snapshot.schema_version")
  check (validateString (textField snapshot.jobId) "ready_snapshot.job_id")
  check (validateInt (intField snapshot.jobRevision) "ready_snapshot.job_revision" 1)
  invalidIf (snapshot.gcode.val.role ≠ "gcode") "ready_snapshot.gcode must have role gcode"
  let roles := snapshot.artifacts.map fun artifact => artifact.val.role
  invalidIf (¬ roles.Nodup) "ready_snapshot contains a duplicate artifact role"
  invalidIf ("gcode" ∈ roles)
    "ready_snapshot.artifacts must not contain the dedicated gcode role"
  check (freezeJsonObject snapshot.staticResult "ready_snapshot.static_result")
  check (freezeJsonObject snapshot.sendPlan "ready_snapshot.send_plan")
  check (freezeJsonObject snapshot.readiness "ready_snapshot.readiness")
  check (freezeJsonObject snapshot.planningParameters "ready_snapshot.planning_parameters")
  rejectHardwareAuthority snapshot.staticResult "ready_snapshot.static_result"
  rejectHardwareAuthority snapshot.sendPlan "ready_snapshot.send_plan"
  rejectHardwareAuthority snapshot.readiness "ready_snapshot.readiness"
  rejectHardwareAuthority snapshot.planningParameters "ready_snapshot.planning_parameters"
  check (validateString (textField snapshot.applicationVersion)
    "ready_snapshot.application_version")

/-- The snapshot of what is ready to run. -/
def ReadyToRunSnapshot (φ : Type) [PyFinite φ] :=
  { snapshot : ReadyToRunSnapshot.Fields φ // snapshot.postInit = .ok () }

/-- The names of the fields of a snapshot. -/
def readyFields : List String :=
  ["schema_version", "job_id", "job_revision", "gcode", "artifacts", "static_result", "send_plan",
    "readiness", "config", "planning_parameters", "application_version"]

/-- The document of a snapshot. -/
def ReadyToRunSnapshot.toJson (snapshot : ReadyToRunSnapshot φ) : PyValue φ :=
  record
    [("schema_version", .int snapshot.val.schemaVersion),
      ("job_id", .str snapshot.val.jobId),
      ("job_revision", .int snapshot.val.jobRevision),
      ("gcode", snapshot.val.gcode.toJson),
      ("artifacts", .arr (snapshot.val.artifacts.map ArtifactRef.toJson)),
      ("static_result", snapshot.val.staticResult),
      ("send_plan", snapshot.val.sendPlan),
      ("readiness", snapshot.val.readiness),
      ("config", snapshot.val.config.toJson),
      ("planning_parameters", snapshot.val.planningParameters),
      ("application_version", .str snapshot.val.applicationVersion)]

/-- A snapshot, from its document. -/
def ReadyToRunSnapshot.fromJson (payload : PyValue φ) : Decoder (ReadyToRunSnapshot φ) := do
  let data ← object payload "ready snapshot"
  let forbidden := forbiddenKeys (data.map Prod.fst)
  if forbidden ≠ [] then
    refuseForbidden "ready snapshot" forbidden
  else
    requireExactFields data readyFields "ready snapshot"
    let items ← jobs.arrayItems (valueAt data "artifacts")
      "ready_snapshot.artifacts must be a JSON array"
    let artifacts ← items.mapM ArtifactRef.fromJson
    acceptIf ReadyToRunSnapshot.Fields.postInit
      { schemaVersion :=
          ← validateSchemaVersion (valueAt data "schema_version") "ready_snapshot.schema_version"
        jobId := ← validateString (valueAt data "job_id") "ready_snapshot.job_id"
        jobRevision := ← validateInt (valueAt data "job_revision") "ready_snapshot.job_revision" 1
        gcode := ← ArtifactRef.fromJson (valueAt data "gcode")
        artifacts := artifacts
        staticResult :=
          ← freezeJsonObject (valueAt data "static_result") "ready_snapshot.static_result"
        sendPlan := ← freezeJsonObject (valueAt data "send_plan") "ready_snapshot.send_plan"
        readiness := ← freezeJsonObject (valueAt data "readiness") "ready_snapshot.readiness"
        config := ← ConfigSnapshot.fromJson (valueAt data "config")
        planningParameters :=
          ← freezeJsonObject (valueAt data "planning_parameters")
            "ready_snapshot.planning_parameters"
        applicationVersion :=
          ← validateString (valueAt data "application_version")
            "ready_snapshot.application_version" }

/-! ### Jobs -/

/-- What a state has to carry: a blocker when it is blocked, an error when it has failed, and
a snapshot when it is ready to run or a machine has drawn it. -/
def validatedStatePayloads (state : JobState) (blocker : Option (JobBlocker φ))
    (error : Option (ErrorPayload φ)) (readySnapshot : Option (ReadyToRunSnapshot φ))
    (context : PyStr) (retainReadySnapshotOnCancel retainMachineOutcomeSnapshot : Bool) :
    Decoder (Option (JobBlocker φ) × Option (ErrorPayload φ) × Option (ReadyToRunSnapshot φ)) :=
  do
  let validatedError ← error.mapM fun error =>
    cloneError error (context ++ PyStr.ofString ".error")
  invalidIf (decide (state = .blocked) ≠ blocker.isSome)
    (context ++ PyStr.ofString " BLOCKED state must carry exactly one blocker")
  invalidIf (decide (state = .failed) ≠ validatedError.isSome)
    (context ++ PyStr.ofString " FAILED state must carry exactly one error")
  let machineOutcome := retainMachineOutcomeSnapshot && state ∈ [.completed, .recoveryRequired]
  let readySnapshotAllowed :=
    state = .readyToRun || machineOutcome || (retainReadySnapshotOnCancel && state = .cancelled)
  invalidIf
    (((state = .readyToRun || machineOutcome) && readySnapshot.isNone) ||
      (!readySnapshotAllowed && readySnapshot.isSome))
    (context ++ PyStr.ofString (" READY_TO_RUN, COMPLETED, and RECOVERY_REQUIRED states must " ++
      "retain exactly one ready snapshot"))
  return (blocker, validatedError, readySnapshot)

/-- The fields of a job. -/
structure JobRecord.Fields (φ : Type) [PyFinite φ] where
  schemaVersion : ℕ
  jobId : String
  kind : JobKind
  name : String
  state : JobState
  revision : ℕ
  request : PyValue φ
  config : ConfigSnapshot
  blocker : Option (JobBlocker φ)
  error : Option (ErrorPayload φ)
  readySnapshot : Option (ReadyToRunSnapshot φ)
  createdAt : Timestamp
  updatedAt : Timestamp

/-- A snapshot is the one of a job: it has its identifier and the revision at which the job
became ready. -/
def ReadyToRunSnapshot.Belongs (snapshot : ReadyToRunSnapshot φ) (job : JobRecord.Fields φ) :
    Prop :=
  snapshot.val.jobId = job.jobId ∧
    if job.state = .readyToRun then
      snapshot.val.jobRevision = job.revision
    else
      snapshot.val.jobRevision < job.revision

instance (snapshot : ReadyToRunSnapshot φ) (job : JobRecord.Fields φ) :
    Decidable (snapshot.Belongs job) :=
  inferInstanceAs (Decidable (_ ∧ _))

/-- The checks of the constructor of a job. -/
def JobRecord.Fields.postInit (job : JobRecord.Fields φ) : Decoder Unit := do
  check (validateSchemaVersion (intField job.schemaVersion) "job.schema_version")
  check (validateString (textField job.jobId) "job.job_id")
  check (validateString (textField job.name) "job.name")
  invalidIf (jobStates job.kind job.state = false)
    (job.kind.value ++ " jobs cannot use the " ++ job.state.value ++ " state")
  check (validateInt (intField job.revision) "job.revision" 0)
  check (freezeJsonObject job.request "job.request")
  let (_, error, readySnapshot) ← validatedStatePayloads job.state job.blocker job.error
    job.readySnapshot "job" true (job.kind = .offlineWorkflow)
  invalidIf (∃ e ∈ error, e.jobId ≠ some job.jobId)
    "job.error.job_id must explicitly match job.job_id"
  invalidIf (∃ snapshot ∈ readySnapshot, ¬ snapshot.Belongs job)
    "job ready snapshot must match job ID and its immutable ready revision"
  invalidIf (job.updatedAt < job.createdAt) "job.updated_at must not precede job.created_at"

/-- A job. -/
def JobRecord (φ : Type) [PyFinite φ] := { job : JobRecord.Fields φ // job.postInit = .ok () }

/-- The conversions of Python between a date and time and its text in ISO 8601. -/
structure IsoFormat where
  isoformat : Timestamp → String
  fromisoformat : String → Option Datetime

/-- The date and time of a text, which has to have a time zone. -/
def parseDatetime (iso : IsoFormat) (value : PyValue φ) (field : PyStr) : Decoder Timestamp := do
  let text ← validateString value field
  match iso.fromisoformat text with
  | some (.aware instant) => return instant
  | some .naive => jobs.invalid field " must be timezone-aware" []
  | none => jobs.invalid field " must be an ISO 8601 datetime" []

/-- The names of the fields of a job. -/
def jobFields : List String :=
  ["schema_version", "job_id", "kind", "name", "state", "revision", "request", "config", "blocker",
    "error", "ready_snapshot", "created_at", "updated_at"]

/-- The kinds of a job. -/
def jobKinds : List JobKind := [.offlineWorkflow, .gcodeCheck]

/-- The states of a job. -/
def allJobStates : List JobState :=
  [.queued, .preparingImage, .imageReady, .planningPaths, .pathPlanReady, .buildingGcode,
    .validatingGcode, .readyToRun, .blocked, .failed, .cancelled, .recoveryRequired, .completed]

/-- The document of a job. -/
def JobRecord.document (iso : IsoFormat) (job : JobRecord φ) : PyValue φ :=
  record
    [("schema_version", .int job.val.schemaVersion),
      ("job_id", .str job.val.jobId),
      ("kind", .str job.val.kind.value),
      ("name", .str job.val.name),
      ("state", .str job.val.state.value),
      ("revision", .int job.val.revision),
      ("request", job.val.request),
      ("config", job.val.config.toJson),
      ("blocker", optionalJson JobBlocker.toJson job.val.blocker),
      ("error", optionalJson errorDocument job.val.error),
      ("ready_snapshot", optionalJson ReadyToRunSnapshot.toJson job.val.readySnapshot),
      ("created_at", .str (iso.isoformat job.val.createdAt)),
      ("updated_at", .str (iso.isoformat job.val.updatedAt))]

/-- The document of a job, with the checks of its error made again. -/
def JobRecord.toJson (iso : IsoFormat) (job : JobRecord φ) : Decoder (PyValue φ) := do
  check (job.val.error.mapM errorJson)
  return job.document iso

/-- A job, from its document. -/
def JobRecord.fromJson (iso : IsoFormat) (payload : PyValue φ) : Decoder (JobRecord φ) := do
  let data ← object payload "job record"
  requireExactFields data jobFields "job record"
  acceptIf JobRecord.Fields.postInit
    { schemaVersion :=
        ← validateSchemaVersion (valueAt data "schema_version") "job.schema_version"
      jobId := ← validateString (valueAt data "job_id") "job.job_id"
      kind := ← parseEnum jobKinds JobKind.value (valueAt data "kind") "job.kind"
      name := ← validateString (valueAt data "name") "job.name"
      state := ← parseEnum allJobStates JobState.value (valueAt data "state") "job.state"
      revision := ← validateInt (valueAt data "revision") "job.revision" 0
      request := ← freezeJsonObject (valueAt data "request") "job.request"
      config := ← ConfigSnapshot.fromJson (valueAt data "config")
      blocker := ← Contract.nullable JobBlocker.fromJson (valueAt data "blocker")
      error := ← Contract.nullable parseError (valueAt data "error")
      readySnapshot :=
        ← Contract.nullable ReadyToRunSnapshot.fromJson (valueAt data "ready_snapshot")
      createdAt := ← parseDatetime iso (valueAt data "created_at") "job.created_at"
      updatedAt := ← parseDatetime iso (valueAt data "updated_at") "job.updated_at" }

end

end DrawingMachine.Document.Jobs
