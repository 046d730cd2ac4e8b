import DrawingMachine.Base.Table
import DrawingMachine.Jobs.Models
import DrawingMachine.Machine.Approvals
import DrawingMachine.Machine.Events
import DrawingMachine.Machine.Requests
import DrawingMachine.Machine.Revisions

/-!
# The database

The tables of the machine repository and the statements that write them. A statement
fails with the error its violated constraint is reported as: the primary keys and unique
indexes, the immediate foreign keys and the triggers of the schema are checks here. The
two foreign keys between executions are deferred; they are checked when a transaction
commits.

A row of an execution, a session or an event holds the value it was written from: the
column checks of the schema follow from the checks of the value's constructor. A job and a
challenge are rewritten in place by statements that do not go through the constructor, so
their rows hold fields, and reading a row constructs the value again.
-/

namespace DrawingMachine

/-- A row of the executions. -/
structure ExecutionRow where
  execution : MachineExecution
  outcome : Option MachineOutcome
  deriving DecidableEq, Repr

/-- The key of a row of the executions. -/
abbrev ExecutionRow.executionId (row : ExecutionRow) : String := row.execution.val.executionId

/-- The row owns the machine. -/
abbrev ExecutionRow.Active (row : ExecutionRow) : Prop :=
  row.execution.val.retirement = none ∧ row.execution.val.phase ≠ .completed

/-- A row of the audit log. The payload is written and never read back. -/
structure AuditEvent where
  eventId : String
  eventType : String
  requestId : Option String
  createdAt : Timestamp
  deriving DecidableEq, Repr

/-- The tables. -/
structure Database where
  jobs : Table String JobRecord.Fields.jobId
  executions : Table String ExecutionRow.executionId
  sessions : Table String fun s : MachineSessionSnapshot => s.val.executionId
  challenges : Table String MachineApprovalChallenge.Fields.challengeId
  requests : Table MachineRequestKey MachineRequestRecord.key
  events : Table String fun e : MachineEvent => e.val.eventId
  progress : Table String fun p : String × MachineProgress => p.1
  jobEvents : Table String fun e : JobEvent => e.val.eventId
  auditEvents : Table String AuditEvent.eventId

namespace Database

/-! ### Reported errors -/

/-- A constraint without an error of its own. -/
def persistenceConflict : ErrorPayload :=
  repositoryError "MACHINE_PERSISTENCE_CONFLICT"
    "machine persistence constraint rejected the operation"

/-- A second execution would own the machine. -/
def ownerConflict : ErrorPayload :=
  repositoryError "MACHINE_OWNER_CONFLICT" "another execution owns the machine safety latch"

/-- A second challenge would be pending for an action. -/
def pendingConflict : ErrorPayload :=
  repositoryError "MACHINE_APPROVAL_PENDING_CONFLICT"
    "one pending challenge already exists for the action"

/-- The execution is no longer at the expected revision. -/
def revisionConflict (message : String) : ErrorPayload :=
  repositoryError "MACHINE_REVISION_CONFLICT" message

/-- A successor differs from what its predecessor froze. -/
def frozenConflict : ErrorPayload :=
  repositoryError "MACHINE_TRANSFER_INVALID" "successor changed predecessor frozen authority"

/-- A challenge was already decided. -/
def approvalReplay (message : String) : ErrorPayload :=
  repositoryError "MACHINE_APPROVAL_REPLAY" message

/-- A challenge no longer binds the current execution. -/
def approvalStale : ErrorPayload :=
  repositoryError "MACHINE_APPROVAL_STALE"
    "machine approval no longer matches current execution authority"

/-- Insert a row, or report a taken key. -/
def insertRow {κ ρ : Type} [DecidableEq κ] {key : ρ → κ} (t : Table κ key) (r : ρ) :
    Except ErrorPayload (Table κ key) :=
  match t.insert? r with
  | none => .error persistenceConflict
  | some t' => .ok t'

/-- A row is inserted exactly when the table takes it. -/
@[simp] theorem insertRow_eq_ok_iff {κ ρ : Type} [DecidableEq κ] {key : ρ → κ}
    {t t' : Table κ key} {r : ρ} :
  insertRow t r = .ok t' ↔ t.insert? r = some t'
  := by
  unfold insertRow
  cases t.insert? r with
  | none => simp
  | some _ => simp

variable (db : Database)

/-- The execution with the given identifier. -/
def getExecution (executionId : String) : Option MachineExecution :=
  (db.executions.get? executionId).map ExecutionRow.execution

/-- The execution found is that of a row of the table. -/
theorem getExecution_eq_some_iff {db : Database} {id : String} {e : MachineExecution} :
  db.getExecution id = some e ↔
    ∃ row ∈ db.executions, row.execution = e ∧ e.val.executionId = id
  := by
  unfold getExecution
  simp only [Option.map_eq_some_iff, Table.get?_eq_some_iff]
  constructor
  · rintro ⟨row, ⟨hrow, hid⟩, rfl⟩
    use row, hrow, rfl
  · rintro ⟨row, hrow, rfl, hid⟩
    use row

/-! ### Executions -/

/-- The job of an initial execution is ready at the revision the execution freezes. -/
def initialJobAuthority (e : MachineExecution.Fields) : Bool :=
  (db.jobs.get? e.jobId).any fun job =>
    job.state = .readyToRun ∧ job.revision = e.readyRevision

/-- The job of a successor needs recovery, and has left the revision it was ready at. -/
def successorJobAuthority (e : MachineExecution.Fields) : Bool :=
  (db.jobs.get? e.jobId).any fun job =>
    job.state = .recoveryRequired ∧ e.readyRevision < job.revision

/-- A successor repeats everything its predecessor froze, and starts afresh. -/
def FrozenAuthority (p e : MachineExecution.Fields) : Prop :=
  p.phase = .recoveryRequired ∧
    (p.retirement.any fun r => r.val.disposition = .transferred ∧
      r.val.successorExecutionId = some e.executionId) = true ∧
    p.jobId = e.jobId ∧ p.readyRevision = e.readyRevision ∧ p.gcodeSha256 = e.gcodeSha256 ∧
    p.applicationVersion = e.applicationVersion ∧
    p.applicationDigest = e.applicationDigest ∧ p.machineDigest = e.machineDigest ∧
    p.providerDigest = e.providerDigest ∧ p.streamMilestone = e.streamMilestone ∧
    p.recoveryIntent = e.recoveryIntent ∧
    p.recoveryIntent ∈ [some RecoveryIntent.preStreamRestart, some .postStreamSafeHome] ∧
    p.machineSessionEpoch ≠ e.machineSessionEpoch ∧ e.phase = .preparingSession ∧
    e.revision = 0

instance (p e : MachineExecution.Fields) : Decidable (FrozenAuthority p e) :=
  inferInstanceAs (Decidable (_ ∧ _))

/-- The triggers of an inserted execution. -/
def checkInsertAuthority (e : MachineExecution.Fields) : Except ErrorPayload Unit :=
  match e.predecessorExecutionId with
  | none => rejectIf (db.initialJobAuthority e = false) persistenceConflict
  | some predecessor => do
      rejectIf (db.successorJobAuthority e = false) persistenceConflict
      rejectIf (¬ ((db.getExecution predecessor).any fun p =>
          FrozenAuthority p.val e) = true)
        frozenConflict

/-- Insert an execution. -/
def insertExecution (e : MachineExecution) : Except ErrorPayload Database := do
  db.checkInsertAuthority e.val
  rejectIf (∃ row ∈ db.executions.rows,
      row.execution.val.machineSessionEpoch = e.val.machineSessionEpoch)
    persistenceConflict
  rejectIf ((ExecutionRow.mk e none).Active ∧ ∃ row ∈ db.executions.rows, row.Active)
    ownerConflict
  let executions ← insertRow db.executions ⟨e, none⟩
  return { db with executions }

/-- Whether evidence, intent, retirement and outcome of a row are changed after they were
recorded. -/
def evidenceChanges (prior next : ExecutionRow) : Bool :=
  (prior.execution.val.recoveryEvidence ≠ none ∧
      next.execution.val.recoveryEvidence ≠ prior.execution.val.recoveryEvidence) ∨
    (prior.execution.val.recoveryIntent ≠ none ∧
      next.execution.val.recoveryIntent ≠ prior.execution.val.recoveryIntent) ∨
    (prior.execution.val.retirement ≠ none ∧
      next.execution.val.retirement ≠ prior.execution.val.retirement) ∨
    (prior.outcome ≠ none ∧ next.outcome ≠ prior.outcome)

/-- The session of the execution was observed. -/
def observedSession (e : MachineExecution.Fields) : Bool :=
  (db.sessions.get? e.executionId).any fun s =>
    s.val.machineSessionEpoch = e.machineSessionEpoch

/-- The triggers of an updated execution. -/
def checkUpdate (prior next : ExecutionRow) : Except ErrorPayload Unit := do
  rejectIf (next.execution.val.revision ≠ prior.execution.val.revision + 1)
    (revisionConflict "machine execution revision changed")
  rejectIf (prior.execution.val.phase = .preparingSession ∧
      next.execution.val.phase = .awaitingHomeApproval ∧
      db.observedSession prior.execution.val = false)
    persistenceConflict
  rejectIf (next.execution.val.streamMilestone.order < prior.execution.val.streamMilestone.order)
    persistenceConflict
  rejectIf (evidenceChanges prior next = true) persistenceConflict

/-- Update an execution at its expected revision. The statement writes the columns that
may change; the callers have checked that the others agree, so the row becomes the value
(`writeMutable_of_progresses`). -/
def updateExecution (expectedRevision : Nat) (e : MachineExecution)
    (outcome : Option MachineOutcome := none) : Except ErrorPayload Database := do
  match db.executions.get? e.val.executionId with
  | none => .error (revisionConflict "machine execution revision changed")
  | some prior => do
      rejectIf (prior.execution.val.revision ≠ expectedRevision)
        (revisionConflict "machine execution revision changed")
      let next : ExecutionRow := ⟨e, outcome <|> prior.outcome⟩
      db.checkUpdate prior next
      rejectIf (next.Active ∧ ∃ row ∈ db.executions.rows,
          row.executionId ≠ e.val.executionId ∧ row.Active)
        ownerConflict
      .ok { db with executions := db.executions.set next }

/-- Write the columns of an execution that may change. -/
def writeMutable (prior e : MachineExecution.Fields) : MachineExecution.Fields :=
  { prior with
    revision := e.revision
    phase := e.phase
    streamMilestone := e.streamMilestone
    recoveryIntent := e.recoveryIntent
    recoveryEvidence := e.recoveryEvidence
    retirement := e.retirement
    updatedAt := e.updatedAt }

/-- Writing the columns that may change makes the row the value, when the value is the
next revision of the row. -/
theorem writeMutable_of_progresses {prior e : MachineExecution} (h : Progresses prior e) :
  writeMutable prior.val e.val = e.val
  := by
  have hb := h.permanentBindings
  have hid := h.executionId
  have hcreated := h.createdAt
  generalize prior.val = prior at hb hid hcreated ⊢
  generalize e.val = e at hb hid hcreated ⊢
  cases prior
  cases e
  simp only [MachineExecution.Fields.permanentBindings, PermanentBindings.mk.injEq] at hb
  simp only at hid hcreated
  simp [writeMutable, hb, hid, hcreated]

/-! ### Sessions, events and progress -/

/-- Insert the session of an execution. -/
def insertSession (s : MachineSessionSnapshot) : Except ErrorPayload Database := do
  rejectIf (∃ row ∈ db.sessions.rows, row.val.machineSessionEpoch = s.val.machineSessionEpoch)
    persistenceConflict
  rejectIf (¬ ((db.getExecution s.val.executionId).any fun e =>
      e.val.machineSessionEpoch = s.val.machineSessionEpoch) = true)
    persistenceConflict
  let sessions ← insertRow db.sessions s
  return { db with sessions }

/-- Whether an event and its audit payload are about the given revision. -/
def EventBound (e : MachineExecution.Fields) (event : MachineEvent) (audit : MachineAuditPayload) :
    Prop :=
  event.val.executionId = e.executionId ∧ event.val.jobId = e.jobId ∧
    event.val.executionRevision = e.revision ∧ event.val.phase = e.phase ∧
    audit.executionId = e.executionId ∧ audit.jobId = e.jobId ∧
    audit.executionRevision = e.revision ∧
    (audit.frozenReadyRevision = none ∨ audit.frozenReadyRevision = some e.readyRevision) ∧
    audit.eventId = event.val.eventId ∧ audit.requestId = event.val.payload.requestId

instance (e : MachineExecution.Fields) (event : MachineEvent) (audit : MachineAuditPayload) :
    Decidable (EventBound e event audit) :=
  inferInstanceAs (Decidable (_ ∧ _))

/-- Insert an event with its audit payload. -/
def insertEvent (e : MachineExecution) (event : MachineEvent) (audit : MachineAuditPayload) :
    Except ErrorPayload Database := do
  rejectIf (¬ EventBound e.val event audit)
    (repositoryError "MACHINE_EVENT_BINDING_MISMATCH"
      "machine event and audit must match execution revision")
  rejectIf (db.getExecution event.val.executionId = none) persistenceConflict
  let events ← insertRow db.events event
  let auditEvents ← insertRow db.auditEvents
    ⟨audit.eventId, event.val.eventType, audit.requestId, event.val.occurredAt⟩
  return { db with events, auditEvents }

/-- Insert the event of a job with its audit record. -/
def insertJobEvent (event : JobEvent) (audit : AuditRecord) : Except ErrorPayload Database := do
  rejectIf (db.jobs.get? event.val.jobId = none) persistenceConflict
  let jobEvents ← insertRow db.jobEvents event
  let auditEvents ← insertRow db.auditEvents
    ⟨audit.val.eventId, audit.val.eventType, audit.val.requestId, event.val.createdAt⟩
  return { db with jobEvents, auditEvents }

/-! ### Jobs -/

/-- The job with the given identifier, read from its row. -/
def getJob (jobId : String) : Except ErrorPayload (Option JobRecord) :=
  match db.jobs.get? jobId with
  | none => .ok none
  | some row => do
      let job ← JobRecord.build row
      return some job

/-- Leave the outcome of an execution on its job. -/
def updateJob (t : MachineJobOutcomeTransition) (occurredAt : Timestamp) :
    Except ErrorPayload Database := do
  match db.jobs.get? t.val.jobId with
  | none =>
      .error (repositoryError "MACHINE_JOB_CONFLICT"
        "restart reconciliation job revision changed")
  | some row => do
      rejectIf (row.revision ≠ t.val.expectedRevision)
        (repositoryError "MACHINE_JOB_CONFLICT" "restart reconciliation job revision changed")
      rejectIf (row.readySnapshot ≠ none ∧ row.readySnapshot ≠ some t.val.readySnapshot)
        persistenceConflict
      .ok { db with
        jobs := db.jobs.set
          { row with
            state := t.val.resultState
            revision := t.val.expectedRevision + 1
            readySnapshot := some t.val.readySnapshot
            updatedAt := occurredAt } }

/-! ### Challenges -/

/-- Whether the binding of a challenge is that of the current, active execution. The
service epoch of a recovery is that of the service that recovers. -/
def bindsCurrent (b : MachineApprovalBinding.Fields) : Bool :=
  (db.getExecution b.executionId).any fun e =>
    e.val.revision = b.executionRevision ∧ e.val.phase = b.requiredPriorPhase ∧
      e.val.retirement = none ∧ e.val.phase ≠ .completed ∧
      (b.action = .recover ∨ e.val.serviceEpoch = b.serviceEpoch) ∧
      e.val.machineSessionEpoch = b.machineSessionEpoch ∧ e.val.jobId = b.jobId ∧
      e.val.readyRevision = b.readyRevision ∧
      e.val.applicationDigest = b.applicationDigest ∧
      e.val.machineDigest = b.machineDigest ∧ e.val.providerDigest = b.providerDigest ∧
      e.val.gcodeSha256 = b.gcodeSha256

/-- The check that a challenge binds the current execution. -/
def requireCurrentApprovalBinding (c : MachineApprovalChallenge) : Except ErrorPayload Unit :=
  rejectIf (db.bindsCurrent c.val.binding.val = false) approvalStale

/-- Insert a challenge. -/
def insertChallenge (c : MachineApprovalChallenge) : Except ErrorPayload Database := do
  rejectIf (db.bindsCurrent c.val.binding.val = false) persistenceConflict
  rejectIf (c.val.status = .pending ∧ ∃ row ∈ db.challenges.rows, row.status = .pending ∧
      row.binding.val.executionId = c.val.binding.val.executionId ∧
      row.binding.val.action = c.val.binding.val.action)
    pendingConflict
  let challenges ← insertRow db.challenges c.val
  return { db with challenges }

/-- Replace a pending challenge by the result of a decision on it, if the row is still the
challenge that was decided on. -/
def updateChallenge (d : MachineApprovalDecision) (replayed : String) :
    Except ErrorPayload Database :=
  if db.challenges.get? d.result.val.challengeId = some d.expected.val then
    .ok { db with challenges := db.challenges.set d.result.val }
  else .error (approvalReplay replayed)

/-- Read a challenge from its row. The principals of the row are trusted: the requester
stands for the automation unless it is the operator. -/
def challengeFromRow (row : MachineApprovalChallenge.Fields) :
    Except ErrorPayload MachineApprovalChallenge := do
  let automation :=
    if row.requester.stablePrincipal = row.operatorPrincipal then
      KernelMachinePrincipal.mk (row.operatorPrincipal.uid + 1) (row.operatorPrincipal.gid + 1)
    else row.requester.stablePrincipal
  rejectIf (automation.overlaps row.operatorPrincipal = true)
    (denied "MACHINE_APPROVAL_ROLES_NOT_DISJOINT"
      "trusted automation and operator UID/GID roles must be disjoint")
  checkSome row.consumer fun consumer =>
    rejectIf (consumer.stablePrincipal ≠ row.operatorPrincipal)
      (denied "MACHINE_APPROVAL_TRUSTED_CONSUMER_DENIED"
        "trusted authenticated consumer is not the configured operator")
  MachineApprovalChallenge.build row

/-- The challenge with the given identifier. -/
def getChallenge (challengeId : String) : Except ErrorPayload (Option MachineApprovalChallenge) :=
  match db.challenges.get? challengeId with
  | none => .ok none
  | some row => do
      let challenge ← challengeFromRow row
      return some challenge

/-- The pending challenge of an action on an execution. -/
def getPendingChallenge (executionId : String) (action : MachineAction) :
    Except ErrorPayload (Option MachineApprovalChallenge) :=
  match db.challenges.rows.find? fun row =>
      row.binding.val.executionId = executionId ∧ row.binding.val.action = action ∧
        row.status = .pending with
  | none => .ok none
  | some row => do
      let challenge ← challengeFromRow row
      return some challenge

/-- Expire every pending challenge of an execution. -/
def expireChallenges (executionId : String) (changedAt : Timestamp) : Database :=
  { db with
    challenges := db.challenges.update
      (fun c => if c.binding.val.executionId = executionId ∧ c.status = .pending then
        { c with status := .expired, statusChangedAt := some changedAt } else c)
      (by intro c; split <;> rfl) }

/-! ### Requests -/

/-- The request with the given key. -/
def getRequest (key : MachineRequestKey) : Option MachineRequestRecord :=
  db.requests.get? key

/-- The checks of the schema on a request that its validation does not make. -/
def requestChecks (r : MachineRequestRecord) : Bool :=
  (r.executionId = none ↔ r.action = none) ∧ (r.executionId = none ↔ r.executionRevision = none) ∧
    (r.executionId = none ↔ r.serviceEpoch = none) ∧
    (r.executionId = none ↔ r.machineSessionEpoch = none) ∧
    (r.response = none ↔ r.completedAt = none)

/-- Insert a request. -/
def insertRequest (r : MachineRequestRecord) : Except ErrorPayload Database := do
  rejectIf (requestChecks r = false) persistenceConflict
  rejectIf (r.admissionId ≠ none ∧ ∃ row ∈ db.requests.rows, row.admissionId = r.admissionId)
    persistenceConflict
  checkSome r.executionId fun id => rejectIf (db.getExecution id = none) persistenceConflict
  checkSome r.predecessorExecutionId fun id =>
    rejectIf (db.getExecution id = none) persistenceConflict
  let requests ← insertRow db.requests r
  return { db with requests }

/-- Invalidate every unclaimed admission of an execution. -/
def invalidateAdmissions (executionId : String) (changedAt : Timestamp) : Database :=
  { db with
    requests := db.requests.update
      (fun r => if r.executionId = some executionId ∧ r.admissionId ≠ none ∧
          r.claimedAt = none ∧ r.invalidatedAt = none then
        { r with
          invalidatedAt := some changedAt
          invalidationReason := some "RESTART_RECONCILIATION" } else r)
      (by intro r; split <;> rfl) }

end Database

end DrawingMachine
