import DrawingMachine.Persistence.Database

/-!
# The operations of a transaction

The operations of the machine repository. Each takes the database inside its transaction
and either fails, which rolls the transaction back, or returns the database it leaves.
-/

namespace DrawingMachine

namespace Database

variable (db : Database)

/-! ### Executions -/

/-- The execution that is revised, at the revision the caller expects. -/
def requirePrior (e : MachineExecution) (expectedRevision : Nat) (message : String) :
    Except ErrorPayload MachineExecution :=
  match db.getExecution e.val.executionId with
  | none => .error (revisionConflict message)
  | some prior =>
      if prior.val.revision = expectedRevision then .ok prior
      else .error (revisionConflict message)

/-- Record a new execution. -/
def createExecution (e : MachineExecution) (event : MachineEvent) (audit : MachineAuditPayload) :
    Except ErrorPayload Database := do
  rejectIf (e.val.revision ≠ 0 ∨ e.val.phase ≠ .preparingSession ∨ e.val.retirement ≠ none ∨
      e.val.predecessorExecutionId ≠ none)
    (repositoryError "MACHINE_EXECUTION_INVALID"
      "new execution must start unretired in PREPARING_SESSION")
  let db ← db.insertExecution e
  db.insertEvent e event audit

/-- Record the session a prepared execution has opened. -/
def recordOpenedSession (expectedRevision : Nat) (e : MachineExecution)
    (session : MachineSessionSnapshot) (event : MachineEvent) (audit : MachineAuditPayload) :
    Except ErrorPayload Database := do
  let prior ← db.requirePrior e expectedRevision
    "machine execution revision changed before session record"
  rejectIf (prior.val.phase ≠ .preparingSession ∨ e.val.phase ≠ .awaitingHomeApproval ∨
      session.val.executionId ≠ e.val.executionId ∨
      session.val.machineSessionEpoch ≠ e.val.machineSessionEpoch)
    (repositoryError "MACHINE_SESSION_BINDING_MISMATCH"
      "observed session does not match PREPARING execution")
  ensureRevisionProgression prior e
  let db ← db.insertSession session
  let db ← db.updateExecution expectedRevision e
  db.insertEvent e event audit

/-- Record the next revision of an execution. -/
def transitionExecution (expectedRevision : Nat) (e : MachineExecution) (event : MachineEvent)
    (audit : MachineAuditPayload) : Except ErrorPayload Database := do
  let prior ← db.requirePrior e expectedRevision "machine execution revision changed"
  ensureRevisionProgression prior e
  let db ← db.updateExecution expectedRevision e
  db.insertEvent e event audit

/-! ### Challenges -/

/-- Replace a pending challenge that a new one supersedes or outlives, if there is one. -/
def replaceChallenge (replacement : Option MachineApprovalDecision) :
    Except ErrorPayload Database :=
  match replacement with
  | none => .ok db
  | some d => do
      rejectIf (d.result.val.status ∉ [ApprovalStatus.superseded, .expired])
        (repositoryError "MACHINE_APPROVAL_INVALID"
          "challenge replacement requires exact SUPERSEDED or EXPIRED decision")
      db.requireCurrentApprovalBinding d.expected
      db.updateChallenge d "challenge to replace is no longer pending"

/-- Record the event of a challenge, if one is given. -/
def recordChallengeEvent (c : MachineApprovalChallenge)
    (recorded : Option (MachineEvent × MachineAuditPayload)) : Except ErrorPayload Database :=
  match recorded, db.getExecution c.val.binding.val.executionId with
  | some (event, audit), some e => db.insertEvent e event audit
  | _, _ => .ok db

/-- Issue a challenge, in the place of a pending one if a decision on that is given. -/
def issueChallenge (c : MachineApprovalChallenge) (replacement : Option MachineApprovalDecision)
    (recorded : Option (MachineEvent × MachineAuditPayload)) : Except ErrorPayload Database := do
  rejectIf (c.val.status ≠ .pending)
    (repositoryError "MACHINE_APPROVAL_INVALID" "new challenge must be pending")
  db.requireCurrentApprovalBinding c
  let db ← db.replaceChallenge replacement
  let db ← db.insertChallenge c
  db.recordChallengeEvent c recorded

/-- Record the decision on a challenge. -/
def decideChallenge (d : MachineApprovalDecision) : Except ErrorPayload Database := do
  db.requireCurrentApprovalBinding d.expected
  db.updateChallenge d "machine approval challenge is no longer pending"

/-! ### Requests -/

/-- What reserving a request found: the record stored under its key, and whether this
reservation stored it. -/
structure MachineRequestReservation where
  record : MachineRequestRecord
  created : Bool

/-- Reserve a request. A request that is already reserved is returned as it is stored. -/
def reserveRequest (r : MachineRequestRecord) :
    Except ErrorPayload (MachineRequestReservation × Database) := do
  r.validateRequest
  match db.getRequest r.key with
  | some existing => do
      rejectIf (existing.command ≠ r.command ∨ existing.argumentDigest ≠ r.argumentDigest)
        (repositoryError "REQUEST_ID_CONFLICT"
          "request ID was already used with different authority")
      return (⟨existing, false⟩, db)
  | none => do
      let db ← db.insertRequest r
      return (⟨r, true⟩, db)

/-- Store the response of a request. -/
def completeRequest (key : MachineRequestKey) (response : MachineResponse)
    (completedAt : Timestamp) : Except ErrorPayload (MachineRequestRecord × Database) :=
  match db.getRequest key with
  | none =>
      .error (repositoryError "MACHINE_REQUEST_RESULT_CONFLICT"
        "machine request result is missing or already completed")
  | some r => do
      rejectIf (r.response ≠ none ∨ r.invalidatedAt ≠ none)
        (repositoryError "MACHINE_REQUEST_RESULT_CONFLICT"
          "machine request result is missing or already completed")
      let completed := { r with response := some response, completedAt := some completedAt }
      return (completed, { db with requests := db.requests.set completed })

/-- The phase in which the execution of an admitted action is. -/
def admittedPhase : MachineAction → MachinePhase
  | .prepareSession => .preparingSession
  | .home => .homing
  | .zcal => .zCalibrating
  | .zconfirm => .zConfirming
  | .stream => .streaming
  | .homeZ => .homingZ
  | .recover => .preparingSession

/-- The execution is the current, active authority the capability names. -/
def CurrentAuthority (c : MachineAdmissionCapability) (e : MachineExecution.Fields) : Prop :=
  e.revision = c.executionRevision ∧ e.phase = admittedPhase c.action ∧
    e.serviceEpoch = c.serviceEpoch ∧ e.machineSessionEpoch = c.machineSessionEpoch ∧
    e.retirement = none ∧ e.phase ∉ [MachinePhase.recoveryRequired, .completed]

instance (c : MachineAdmissionCapability) (e : MachineExecution.Fields) :
    Decidable (CurrentAuthority c e) :=
  inferInstanceAs (Decidable (_ ∧ _))

/-- A recovery is claimed for the successor of a predecessor that was transferred to it. -/
def recoveryCurrent (c : MachineAdmissionCapability) (e : MachineExecution.Fields) : Bool :=
  c.action ≠ .recover ∨
    (e.predecessorExecutionId ≠ none ∧ e.predecessorExecutionId = c.predecessorExecutionId ∧
      e.recoveryIntent ≠ none ∧ e.recoveryIntent = c.recoveryIntent ∧
      (c.predecessorExecutionId.any fun id => (db.getExecution id).any fun p =>
        p.val.phase = .recoveryRequired ∧ p.val.recoveryIntent = c.recoveryIntent ∧
          (p.val.retirement.any fun r => r.val.disposition = .transferred ∧
            r.val.successorExecutionId = some c.executionId) = true) = true)

/-- An admission that is no longer current. -/
def admissionStale : ErrorPayload :=
  repositoryError "MACHINE_ADMISSION_STALE"
    "machine admission is no longer current active authority"

/-- Claim an admission: once, while its execution is still what it was admitted for. -/
def claimRequest (c : MachineAdmissionCapability) (claimedAt : Timestamp) :
    Except ErrorPayload (MachineRequestRecord × Database) := do
  c.validateAdmissionCapability
  match db.getRequest c.key with
  | none => .error (admissionMismatch "machine admission capability does not exist")
  | some r => do
      rejectIf (¬ c.Matches r)
        (admissionMismatch "machine admission capability binding does not match")
      rejectIf (r.claimedAt ≠ none)
        (repositoryError "MACHINE_ADMISSION_ALREADY_CLAIMED"
          "machine admission was already claimed")
      rejectIf (r.invalidatedAt ≠ none)
        (repositoryError "MACHINE_ADMISSION_STALE" "machine admission was invalidated")
      match db.getExecution c.executionId with
      | none => .error admissionStale
      | some e => do
          rejectIf (¬ CurrentAuthority c e.val) admissionStale
          rejectIf (db.recoveryCurrent c e.val = false) admissionStale
          let claimed := { r with claimedAt := some claimedAt }
          return (claimed, { db with requests := db.requests.set claimed })

/-! ### Progress -/

/-- Record progress of the current stream. -/
def appendProgress (progressId : String) (p : MachineProgress) : Except ErrorPayload Database := do
  rejectIf (¬ ((db.getExecution p.val.executionId).any fun e =>
      e.val.revision = p.val.executionRevision ∧ e.val.phase = .streaming ∧
        e.val.retirement = none) = true)
    (repositoryError "MACHINE_PROGRESS_STALE"
      "progress does not match current STREAMING authority")
  let progress ← insertRow db.progress (progressId, p)
  return { db with progress }

/-! ### Outcomes -/

/-- The outcome of an execution with what it does to the job and how that is recorded. -/
structure JobOutcome where
  outcome : MachineOutcome
  transition : MachineJobOutcomeTransition
  event : JobEvent
  audit : AuditRecord

/-- The check of an outcome against its execution. -/
def validateOutcome (e : MachineExecution) (o : JobOutcome) : Except ErrorPayload Unit :=
  rejectIf (o.outcome.val.executionId ≠ e.val.executionId ∨
      o.outcome.val.jobId ≠ e.val.jobId ∨ o.outcome.val.executionRevision ≠ e.val.revision ∨
      o.outcome.val.readySnapshot ≠ o.transition.val.readySnapshot ∨
      o.outcome.val.kind.jobState ≠ o.transition.val.resultState ∨
      e.val.phase ≠ o.outcome.val.kind.phase)
    (repositoryError "MACHINE_OUTCOME_BINDING_MISMATCH"
      "machine outcome authority does not match execution/job")

/-- The error of a repository whose event and audit record disagree. -/
def consistencyError (message jobId : String) : ErrorPayload :=
  { repositoryError "REPOSITORY_CONSISTENCY_ERROR" message with details := [("job_id", jobId)] }

/-- The check of an audit record against its event. -/
def assertAuditMatchesEvent (event : JobEvent) (audit : AuditRecord) : Except ErrorPayload Unit := do
  rejectIf (event.val.requester.requesterType ≠ event.val.requesterType)
    (consistencyError "job event requester type does not match its nested requester identity"
      event.val.jobId)
  rejectIf (audit.val.eventId ≠ event.val.eventId ∨ audit.val.eventType ≠ event.val.eventType ∨
      audit.val.requestId ≠ event.val.requestId)
    (consistencyError "audit identity, type, and request must match the job event"
      event.val.jobId)
  rejectIf (audit.val.requester ≠ event.val.requester)
    (consistencyError "audit requester identity must match the job event requester identity"
      event.val.jobId)

/-- A job that changed under an outcome. -/
def jobConflict (message : String) : ErrorPayload :=
  repositoryError "MACHINE_JOB_CONFLICT" message

/-- The check of the outcome of an execution against its job. -/
def checkOutcomeJob (o : JobOutcome) : Except ErrorPayload Unit := do
  let job ← db.getJob o.transition.val.jobId
  match job with
  | none => .error (jobConflict "machine outcome job does not exist")
  | some job => do
      rejectIf (job.val.revision ≠ o.transition.val.expectedRevision ∨
          job.val.readySnapshot ≠ some o.transition.val.readySnapshot)
        (jobConflict "machine outcome job authority changed")
      rejectIf (o.event.val.jobId ≠ job.val.jobId ∨
          o.event.val.jobRevision ≠ job.val.revision + 1)
        (jobConflict "machine outcome job event does not match transition")
      rejectIf (o.event.val.priorState ≠ some job.val.state ∨
          o.event.val.resultState ≠ o.transition.val.resultState ∨
          o.event.val.eventType ≠ o.transition.val.eventType)
        (jobConflict "machine outcome job event state does not match transition")

/-- Record the session an outcome rests on, if there is one. -/
def insertOutcomeSession (e : MachineExecution) (session : Option MachineSessionSnapshot) :
    Except ErrorPayload Database :=
  match session with
  | none => .ok db
  | some s => do
      rejectIf (s.val.executionId ≠ e.val.executionId ∨
          s.val.machineSessionEpoch ≠ e.val.machineSessionEpoch)
        (repositoryError "MACHINE_SESSION_BINDING_MISMATCH"
          "recovery session evidence is misbound")
      db.insertSession s

/-- Record the end of an execution together with the outcome on its job. -/
def commitMachineOutcome (expectedRevision : Nat) (e : MachineExecution) (o : JobOutcome)
    (event : MachineEvent) (audit : MachineAuditPayload)
    (session : Option MachineSessionSnapshot) : Except ErrorPayload Database := do
  let prior ← db.requirePrior e expectedRevision "machine execution revision changed"
  ensureRevisionProgression prior e
  validateOutcome e o
  db.checkOutcomeJob o
  assertAuditMatchesEvent o.event o.audit
  let db ← db.insertOutcomeSession e session
  let db ← db.updateExecution expectedRevision e (some o.outcome)
  let db ← db.updateJob o.transition o.outcome.val.occurredAt
  let db ← db.insertEvent e event audit
  db.insertJobEvent o.event o.audit

/-! ### Owners -/

/-- Retire an execution by release. -/
def releaseOwner (expectedRevision : Nat) (e : MachineExecution) (event : MachineEvent)
    (audit : MachineAuditPayload) : Except ErrorPayload Database := do
  rejectIf (e.val.retirementDisposition ≠ some .released)
    (repositoryError "MACHINE_RELEASE_INVALID"
      "owner release requires immutable RELEASED evidence")
  db.transitionExecution expectedRevision e event audit

/-- The fields a successor takes over from its predecessor. -/
def FrozenFields (prior successor : MachineExecution.Fields) : Prop :=
  successor.schemaVersion = prior.schemaVersion ∧ successor.jobId = prior.jobId ∧
    successor.readyRevision = prior.readyRevision ∧
    successor.gcodeSha256 = prior.gcodeSha256 ∧
    successor.applicationVersion = prior.applicationVersion ∧
    successor.applicationDigest = prior.applicationDigest ∧
    successor.machineDigest = prior.machineDigest ∧
    successor.providerDigest = prior.providerDigest ∧
    successor.streamMilestone = prior.streamMilestone ∧
    successor.recoveryIntent = prior.recoveryIntent

instance (prior successor : MachineExecution.Fields) : Decidable (FrozenFields prior successor) :=
  inferInstanceAs (Decidable (_ ∧ _))

/-- An ownership transfer that does not keep to its rules. -/
def transferInvalid (message : String) : ErrorPayload :=
  repositoryError "MACHINE_TRANSFER_INVALID" message

/-- Retire an execution in favour of a successor, which is recorded with it. -/
def transferOwner (expectedRevision : Nat) (predecessor successor : MachineExecution)
    (predecessorEvent successorEvent : MachineEvent)
    (predecessorAudit successorAudit : MachineAuditPayload) : Except ErrorPayload Database := do
  let prior ← db.requirePrior predecessor expectedRevision
    "predecessor machine execution revision changed"
  ensureRevisionProgression prior predecessor
  rejectIf (¬ ((predecessor.val.retirement.any fun r => r.val.disposition = .transferred ∧
        r.val.successorExecutionId = some successor.val.executionId) = true ∧
      successor.val.predecessorExecutionId = some predecessor.val.executionId))
    (transferInvalid "ownership transfer bindings do not match")
  rejectIf (prior.val.phase ≠ .recoveryRequired ∨
      prior.val.recoveryIntent ∉ [some RecoveryIntent.preStreamRestart, some .postStreamSafeHome] ∨
      successor.val.revision ≠ 0 ∨ successor.val.phase ≠ .preparingSession ∨
      successor.val.machineSessionEpoch = prior.val.machineSessionEpoch ∨
      ¬ FrozenFields prior.val successor.val)
    (transferInvalid "successor must preserve predecessor frozen authority")
  let db ← db.updateExecution expectedRevision predecessor
  let db ← db.insertExecution successor
  let db ← db.insertEvent predecessor predecessorEvent predecessorAudit
  db.insertEvent successor successorEvent successorAudit

/-! ### Reconciliation -/

/-- A reconciliation that does not keep to its rules. -/
def reconciliationInvalid (message : String) : ErrorPayload :=
  repositoryError "MACHINE_RECONCILIATION_INVALID" message

/-- The instant of the latest event of an execution. -/
def latestEventAt (executionId : String) : Option Timestamp :=
  ((db.events.rows.filter fun e => e.val.executionId = executionId).map
    fun e => e.val.occurredAt).max?

/-- The check of a reconciliation that repeats one. -/
def checkRepeated (prior e : MachineExecution) (event : MachineEvent) : Except ErrorPayload Unit :=
  rejectIf (prior.val.retirement ≠ none ∨ e ≠ prior ∨
      ¬ ((db.latestEventAt prior.val.executionId).any fun latest =>
        latest < event.val.occurredAt) = true)
    (reconciliationInvalid ("repeated reconciliation must preserve frozen recovery authority " ++
      "and advance event time"))

/-- The check of the outcome of a reconciliation against its job. -/
def checkRestartJob (o : JobOutcome) : Except ErrorPayload Unit := do
  let job ← db.getJob o.transition.val.jobId
  match job with
  | none => .error (jobConflict "restart reconciliation job does not exist")
  | some job =>
      rejectIf (job.val.revision ≠ o.transition.val.expectedRevision ∨
          job.val.readySnapshot ≠ some o.transition.val.readySnapshot ∨
          o.event.val.jobId ≠ job.val.jobId ∨
          o.event.val.jobRevision ≠ job.val.revision + 1 ∨
          o.event.val.priorState ≠ some job.val.state ∨
          o.event.val.resultState ≠ o.transition.val.resultState ∨
          o.event.val.eventType ≠ o.transition.val.eventType)
        (jobConflict "restart reconciliation job authority changed")

/-- The check of what a reconciliation makes of the execution. -/
def checkReconciled (prior e : MachineExecution) (event : MachineEvent) :
    Except ErrorPayload Unit :=
  if prior.val.phase = .recoveryRequired then db.checkRepeated prior e event
  else ensureRevisionProgression prior e

/-- Record the recovery of an execution, unless it was recorded before. -/
def updateReconciled (expectedRevision : Nat) (prior e : MachineExecution)
    (outcome : Option MachineOutcome) : Except ErrorPayload Database :=
  if prior.val.phase = .recoveryRequired then .ok db
  else db.updateExecution expectedRevision e outcome

/-- Leave the outcome of a reconciliation on the job, if there is one. -/
def updateReconciledJob (outcome : Option JobOutcome) : Except ErrorPayload Database :=
  match outcome with
  | none => .ok db
  | some o => db.updateJob o.transition o.outcome.val.occurredAt

/-- Record the event of the job of a reconciliation, if there is one. -/
def insertReconciledJobEvent (outcome : Option JobOutcome) : Except ErrorPayload Database :=
  match outcome with
  | none => .ok db
  | some o => db.insertJobEvent o.event o.audit

/-- Freeze an execution in recovery after a restart: expire its pending challenges,
invalidate its unclaimed admissions, and record the recovery unless it was recorded
before. -/
def reconcileRestart (expectedRevision : Nat) (e : MachineExecution) (event : MachineEvent)
    (audit : MachineAuditPayload) (outcome : Option JobOutcome) :
    Except ErrorPayload Database := do
  let prior ← db.requirePrior e expectedRevision
    "machine execution revision changed before reconciliation"
  db.checkReconciled prior e event
  rejectIf (e.val.phase ≠ .recoveryRequired ∨ e.val.recoveryEvidence = none)
    (reconciliationInvalid "restart reconciliation must freeze execution in recovery")
  rejectIf (prior.val.phase = .recoveryRequired ∧ outcome.isSome = true)
    (reconciliationInvalid "repeated reconciliation cannot repeat the durable job outcome")
  checkSome outcome fun o => do
    validateOutcome e o
    db.checkRestartJob o
    assertAuditMatchesEvent o.event o.audit
  let db := db.expireChallenges e.val.executionId event.val.occurredAt
  let db := db.invalidateAdmissions e.val.executionId event.val.occurredAt
  let db ← db.updateReconciled expectedRevision prior e (outcome.map JobOutcome.outcome)
  let db ← db.updateReconciledJob outcome
  let db ← db.insertEvent e event audit
  db.insertReconciledJobEvent outcome

/-- Record an event of an execution that waits for recovery. -/
def recordLifecycleEvent (e : MachineExecution) (event : MachineEvent)
    (audit : MachineAuditPayload) : Except ErrorPayload Database := do
  rejectIf (db.getExecution e.val.executionId ≠ some e ∨ e.val.phase ≠ .recoveryRequired ∨
      e.val.recoveryEvidence = none ∨ e.val.retirement ≠ none)
    (repositoryError "MACHINE_LIFECYCLE_EVENT_INVALID"
      "lifecycle uncertainty must bind the exact active recovery execution")
  db.insertEvent e event audit

/-! ### Commit -/

/-- The deferred foreign keys: a predecessor and a successor that is named exists. -/
def foreignKeysHold : Bool :=
  db.executions.rows.all fun row =>
    (row.execution.val.predecessorExecutionId.all fun id => (db.getExecution id).isSome) &&
      (row.execution.val.retirement.all fun r =>
        r.val.successorExecutionId.all fun id => (db.getExecution id).isSome)

end Database

end DrawingMachine
