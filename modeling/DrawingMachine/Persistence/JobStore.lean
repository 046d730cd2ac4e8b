import DrawingMachine.Jobs.Transitions
import DrawingMachine.Persistence.Transactions

/-!
# The repository of the jobs

The statements of the repository of the jobs, on the database it shares with the machine,
and the changes that the chain of offline steps makes through them. The chain decides on a
copy of the job that it read before; the repository compares the revision of the copy with
the stored one.
-/

namespace DrawingMachine

/-- An artifact of a revision of a job. -/
structure JobArtifact where
  jobId : String
  jobRevision : Nat
  artifact : ArtifactRef
  deriving DecidableEq, Repr

/-- The key of an artifact. -/
def JobArtifact.key (a : JobArtifact) : String × Nat × String :=
  (a.jobId, a.jobRevision, a.artifact.val.role)

/-- The database of both repositories: the tables that the machine writes, and the artifacts
of the jobs. -/
structure SharedDatabase where
  tables : Database
  artifacts : Table (String × Nat × String) JobArtifact.key

/-- How a transaction of the repository of the jobs fails: with an error of the program, or
with a constraint of the schema. -/
inductive StoreError where
  | payload (e : ErrorPayload)
  | integrity (message : String)
  | abandoned
  deriving DecidableEq, Repr

/-- A check whose error is one of the program. -/
def reported {α : Type} (x : Except ErrorPayload α) : Except StoreError α :=
  x.mapError StoreError.payload

/-- A check with an error of the program passes as it does by itself. -/
@[simp] theorem reported_eq_ok_iff {α : Type} {x : Except ErrorPayload α} {a : α} :
  reported x = .ok a ↔ x = .ok a
  := by
  cases x with
  | error e => simp [reported, Except.mapError]
  | ok b => simp [reported, Except.mapError]

namespace SharedDatabase

open Database (consistencyError assertAuditMatchesEvent)

variable (db : SharedDatabase)

/-! ### Statements -/

/-- Insert a row, or fail with a constraint. -/
def insertUnique {κ ρ : Type} [DecidableEq κ] {key : ρ → κ} (t : Table κ key) (r : ρ)
    (message : String) : Except StoreError (Table κ key) :=
  match t.insert? r with
  | none => .error (.integrity message)
  | some t' => .ok t'

/-- A row is inserted exactly when the table takes it. -/
@[simp] theorem insertUnique_eq_ok_iff {κ ρ : Type} [DecidableEq κ] {key : ρ → κ}
    {t t' : Table κ key} {r : ρ} {message : String} :
  insertUnique t r message = .ok t' ↔ t.insert? r = some t'
  := by
  unfold insertUnique
  cases t.insert? r with
  | none => simp
  | some _ => simp

/-- Insert the artifacts of a revision of a job. -/
def insertArtifacts (jobId : String) (jobRevision : Nat) (artifacts : List ArtifactRef) :
    Except StoreError SharedDatabase := do
  let artifacts ← artifacts.foldlM (fun t a =>
    insertUnique t ⟨jobId, jobRevision, a⟩ "job_artifacts is append-only") db.artifacts
  return { db with artifacts := artifacts }

/-- Insert the event of a job, and its audit record. -/
def recordEvent (event : JobEvent) (audit : AuditRecord) (recordedAt : Timestamp) :
    Except StoreError SharedDatabase := do
  let jobEvents ← insertUnique db.tables.jobEvents event "job_events is append-only"
  let auditEvents ← insertUnique db.tables.auditEvents
    ⟨audit.val.eventId, audit.val.eventType, audit.val.requestId, recordedAt⟩
    "audit_events is append-only"
  return { db with tables := { db.tables with jobEvents := jobEvents, auditEvents := auditEvents } }

/-- The artifacts of a revision have different roles. -/
def assertUniqueArtifactRoles (artifacts : List ArtifactRef) (jobId : String) :
    Except StoreError Unit :=
  rejectIf (¬ (artifacts.map fun a => a.val.role).Nodup)
    (.payload (consistencyError "artifact roles must be unique within a job revision" jobId))

/-! ### New jobs -/

/-- Store a new job. -/
def createJob (job : JobRecord) (artifacts : List ArtifactRef) (event : JobEvent)
    (audit : AuditRecord) (recordedAt : Timestamp) : Except StoreError SharedDatabase := do
  rejectIf (event.val.jobId ≠ job.val.jobId ∨ event.val.jobRevision ≠ job.val.revision ∨
      event.val.priorState ≠ none ∨ event.val.resultState ≠ job.val.state)
    (.payload (consistencyError "created job and job event state identity must match"
      job.val.jobId))
  reported (assertAuditMatchesEvent event audit)
  assertUniqueArtifactRoles artifacts job.val.jobId
  let jobs ← insertUnique db.tables.jobs job.val "UNIQUE constraint failed: jobs.job_id"
  let db : SharedDatabase := { db with tables := { db.tables with jobs := jobs } }
  let db ← db.insertArtifacts job.val.jobId job.val.revision artifacts
  db.recordEvent event audit recordedAt

/-! ### Changes of a job -/

/-- The stored job that is to be changed, at the revision the caller expects. -/
def requireJob (t : JobTransition) : Except StoreError JobRecord :=
  match db.tables.jobs.get? t.val.jobId with
  | none => .error (.payload (consistencyError "job does not exist" t.val.jobId))
  | some row => do
      let current ← reported (JobRecord.build row)
      rejectIf (current.val.revision ≠ t.val.expectedRevision)
        (.payload (consistencyError "job revision does not match the expected revision"
          t.val.jobId))
      return current

/-- The check that an event describes a change of a job. -/
def checkTransitionEvent (t : JobTransition) (current : JobRecord) (event : JobEvent) :
    Except StoreError Unit :=
  rejectIf (event.val.jobId ≠ t.val.jobId ∨ event.val.jobRevision ≠ t.val.expectedRevision + 1 ∨
      event.val.priorState ≠ some current.val.state ∨
      event.val.resultState ≠ t.val.resultState ∨
      event.val.requestId ≠ t.val.requestId ∨ event.val.eventType ≠ t.val.eventType)
    (.payload (consistencyError
      "job transition and job event must describe the same revision change" t.val.jobId))

/-- The job after a change. A job that is cancelled keeps its snapshot. -/
def transitionedFields (t : JobTransition) (current : JobRecord.Fields) (updatedAt : Timestamp) :
    JobRecord.Fields :=
  { current with
    state := t.val.resultState
    revision := t.val.expectedRevision + 1
    blocker := t.val.blocker
    error := t.val.error
    readySnapshot :=
      if t.val.resultState = .cancelled ∧ current.readySnapshot ≠ none then current.readySnapshot
      else t.val.readySnapshot
    updatedAt := updatedAt }

/-- A job that an execution draws is not cancelled. -/
def cancelDenied (jobId : String) : ErrorPayload where
  code := "MACHINE_ACTIVE_OWNER_CANCEL_DENIED"
  category := .internal
  message := "active machine ownership prevents job cancellation"
  retryable := false
  details := [("job_id", jobId)]

/-- The triggers of a job that is changed, and the statement. -/
def updateJob (current updated : JobRecord) : Except StoreError SharedDatabase := do
  rejectIf (updated.val.state = .cancelled ∧ ∃ row ∈ db.tables.executions.rows,
      row.execution.val.jobId = current.val.jobId ∧ row.Active)
    (.payload (cancelDenied updated.val.jobId))
  rejectIf (current.val.readySnapshot ≠ none ∧
      updated.val.readySnapshot ≠ current.val.readySnapshot)
    (.integrity "jobs ready snapshot is immutable")
  return { db with tables := { db.tables with jobs := db.tables.jobs.set updated.val } }

/-- Change a job, and return it. -/
def transitionJob (t : JobTransition) (artifacts : List ArtifactRef) (event : JobEvent)
    (audit : AuditRecord) (updatedAt recordedAt : Timestamp) :
    Except StoreError (JobRecord × SharedDatabase) := do
  let current ← db.requireJob t
  checkTransitionEvent t current event
  reported (assertAuditMatchesEvent event audit)
  assertUniqueArtifactRoles artifacts t.val.jobId
  let updated ← reported (JobRecord.build (transitionedFields t current.val updatedAt))
  let db ← db.updateJob current updated
  let db ← db.insertArtifacts updated.val.jobId updated.val.revision artifacts
  let db ← db.recordEvent event audit recordedAt
  return (updated, db)

end SharedDatabase

/-! ### The chain of offline steps -/

namespace OfflineJobChain

/-- The version of the application. -/
def version : String := "0.2.0.dev0"

/-- The name under which a change is audited. -/
def auditCommandName (eventType : String) : String :=
  if eventType = "job.queued" then "workflow.run"
  else if eventType = "gcode_check.queued" then "gcode.check"
  else if eventType = "job.review_accepted" then "workflow.run.review"
  else if eventType = "job.cancelled" then "job.cancel"
  else if eventType = "job.service_restarted" then "service.reconcile"
  else "service.advance"

/-- What an event and its audit record are made from: the change, and who asked for it. -/
structure Change where
  eventType : String
  requestId : Option String
  requester : RequesterIdentity
  blocker : Option JobBlocker := none
  error : Option JobError := none
  readySnapshot : Option ReadyToRunSnapshot := none
  artifacts : List ArtifactRef := []

/-- What the environment gives a transaction: the identifier of the event, the readings of
the clock, and whether the commit is still allowed at the end. -/
structure Commit where
  eventId : String
  occurredAt : Timestamp
  updatedAt : Timestamp
  recordedAt : Timestamp
  allowed : Bool

/-- The event of a change of a job, and its audit record. -/
def eventPair (job : JobRecord) (prior : Option JobState) (result : JobState) (c : Change)
    (commit : Commit) : Except ErrorPayload (JobEvent × AuditRecord) := do
  let event ← acceptIf JobEvent.Fields.postInit {
    eventId := commit.eventId
    jobId := job.val.jobId
    jobRevision := if prior = none then job.val.revision else job.val.revision + 1
    eventType := c.eventType
    priorState := prior
    resultState := result
    requestId := c.requestId
    requesterType := c.requester.requesterType
    requester := c.requester
    createdAt := commit.occurredAt }
  let audit ← acceptIf AuditRecord.Fields.postInit {
    eventId := commit.eventId
    eventType := c.eventType
    requestId := c.requestId
    requester := c.requester
    jobId := job.val.jobId
    commandName := auditCommandName c.eventType
    commandEventType := c.eventType
    jobKind := job.val.kind
    priorState := prior
    resultState := result
    errorCode := c.error.map fun e => e.payload.code
    blockerCode := c.blocker.map fun b => b.val.code
    serviceVersion := version
    approval :=
      if c.eventType = "job.review_accepted" then some (c.requester, commit.occurredAt) else none }
  return (event, audit)

/-- A change of a job that the domain does not allow. -/
def transitionNotAllowed (job : JobRecord) (state : JobState) : ErrorPayload where
  code := "JOB_TRANSITION_NOT_ALLOWED"
  category := .internal
  message := "offline job transition is not allowed by the domain state authority"
  retryable := false
  details :=
    [ ("job_kind", job.val.kind.value), ("prior_state", job.val.state.value),
      ("result_state", state.value) ]

/-- The code of the blocker of a job. -/
def blockerCode (job : JobRecord.Fields) : Option String := job.blocker.map fun b => b.val.code

/-- Change a job, decided on a copy of it. The transaction is abandoned when the commit is
no longer allowed at its end. -/
def transition (db : SharedDatabase) (job : JobRecord) (state : JobState) (c : Change)
    (commit : Commit) : Except StoreError (JobRecord × SharedDatabase) := do
  rejectIf (allowedTransition job.val.state state (blockerCode job.val) job.val.kind = false)
    (.payload (transitionNotAllowed job state))
  let t ← reported (acceptIf JobTransition.Fields.postInit
    ⟨job.val.jobId, job.val.revision, state, c.requestId, c.eventType, c.blocker, c.error,
      c.readySnapshot⟩)
  let pair ← reported (eventPair job (some job.val.state) state c commit)
  let updated ← db.transitionJob t c.artifacts pair.1 pair.2 commit.updatedAt commit.recordedAt
  rejectIf (commit.allowed = false) .abandoned
  return updated

/-- The job that is stored for a request. -/
def queuedFields (jobId : String) (kind : JobKind) (name request : String)
    (config : ConfigSnapshot) (now : Timestamp) : JobRecord.Fields where
  schemaVersion := 1
  jobId := jobId
  kind := kind
  name := name
  state := .queued
  revision := 0
  request := request
  config := config
  blocker := none
  error := none
  readySnapshot := none
  createdAt := now
  updatedAt := now

/-- Store the job of a request. The staging of its input is recorded in the same
transaction, and fails it with an error of its own. -/
def submit (db : SharedDatabase) (jobId : String) (kind : JobKind) (name request : String)
    (config : ConfigSnapshot) (now : Timestamp) (c : Change) (commit : Commit) :
    Except StoreError (JobRecord × SharedDatabase) := do
  let job ← reported (JobRecord.build (queuedFields jobId kind name request config now))
  let pair ← reported (eventPair job none .queued c commit)
  let db ← db.createJob job c.artifacts pair.1 pair.2 commit.recordedAt
  rejectIf (commit.allowed = false) .abandoned
  return (job, db)

end OfflineJobChain

end DrawingMachine
