import DrawingMachine.Persistence.Transactions

/-!
# What the operations do

For every statement and every operation, what a successful call has checked and what it
leaves: the tables it writes, and that it leaves the others as they were. The effect of an
operation on the executions is given by `Revised`, `Inserted` or both; later proofs rest
on these lemmas and do not look into the operations again.
-/

namespace DrawingMachine

namespace Database

variable {db db' : Database} {e : MachineExecution} {n : Nat}
  {event : MachineEvent} {audit : MachineAuditPayload}

/-! ### Executions -/

/-- The database with the same tables except for the recorded events. -/
def Recorded (db db' : Database) : Prop :=
  db' = { db with
    events := db'.events
    auditEvents := db'.auditEvents
    jobEvents := db'.jobEvents }

/-- An execution was inserted: it had the authority, and did not share the machine. -/
structure Inserted (db : Database) (e : MachineExecution) (db' : Database) : Prop where
  authority : db.checkInsertAuthority e.val = .ok ()
  epoch : ∀ row ∈ db.executions,
    row.execution.val.machineSessionEpoch ≠ e.val.machineSessionEpoch
  owner : (ExecutionRow.mk e none).Active → ∀ row ∈ db.executions, ¬ row.Active
  table : db.executions.insert? ⟨e, none⟩ = some db'.executions
  frame : db' = { db with executions := db'.executions }

/-- An execution was revised: the row at the expected revision became the value. -/
structure Revised (db : Database) (prior : ExecutionRow) (e : MachineExecution)
    (outcome : Option MachineOutcome) (db' : Database) : Prop where
  mem : prior ∈ db.executions
  executionId : prior.executionId = e.val.executionId
  checked : db.checkUpdate prior ⟨e, outcome <|> prior.outcome⟩ = .ok ()
  owner : (ExecutionRow.mk e (outcome <|> prior.outcome)).Active →
    ∀ row ∈ db.executions, row.executionId ≠ e.val.executionId → ¬ row.Active
  table : db'.executions = db.executions.set ⟨e, outcome <|> prior.outcome⟩
  frame : db' = { db with executions := db'.executions }

/-- What inserting an execution does. -/
theorem inserted_of_insertExecution (h : db.insertExecution e = .ok db') :
  Inserted db e db'
  := by
  simp only [insertExecution, Except.bind_eq_ok_iff, Except.exists_unit_iff,
    rejectIf_eq_ok_iff, insertRow_eq_ok_iff, Except.pure_eq_ok_iff] at h
  obtain ⟨hauth, hepoch, howner, executions, htable, rfl⟩ := h
  constructor
  · apply hauth
  · intro row hrow heq
    apply hepoch ⟨row, hrow, heq⟩
  · intro hactive row hrow hrowactive
    apply howner ⟨hactive, row, hrow, hrowactive⟩
  · apply htable
  · rfl

/-- What updating an execution does. -/
theorem revised_of_updateExecution {outcome : Option MachineOutcome}
    (h : db.updateExecution n e outcome = .ok db') :
  ∃ prior, prior.execution.val.revision = n ∧ Revised db prior e outcome db'
  := by
  unfold updateExecution at h
  split at h
  · cases h
  · rename_i prior hprior
    obtain ⟨hmem, hid⟩ := Table.get?_eq_some_iff.mp hprior
    simp only [Except.unit_bind_eq_ok_iff, rejectIf_eq_ok_iff, Except.ok.injEq] at h
    obtain ⟨hrevision, hchecked, howner, rfl⟩ := h
    use prior, Decidable.of_not_not hrevision
    constructor
    · apply hmem
    · apply hid
    · apply hchecked
    · intro hactive row hrow hne hrowactive
      apply howner ⟨hactive, row, hrow, hne, hrowactive⟩
    · rfl
    · rfl

/-- The execution found for a revision is at the revision the caller expects. -/
theorem requirePrior_eq_ok {message : String} {prior : MachineExecution}
    (h : db.requirePrior e n message = .ok prior) :
  db.getExecution e.val.executionId = some prior ∧ prior.val.revision = n
  := by
  unfold requirePrior at h
  split at h
  · cases h
  · rename_i found hfound
    split at h
    · next hrevision =>
        obtain rfl : found = prior := by simpa using h
        use hfound
    · cases h

/-- What inserting an event does. -/
theorem recorded_of_insertEvent (h : db.insertEvent e event audit = .ok db') :
  EventBound e.val event audit ∧ db.events.insert? event = some db'.events ∧ Recorded db db'
  := by
  simp only [insertEvent, Except.bind_eq_ok_iff, Except.exists_unit_iff,
    rejectIf_eq_ok_iff, insertRow_eq_ok_iff, Except.pure_eq_ok_iff, not_not] at h
  obtain ⟨hbound, -, events, hevents, auditEvents, -, rfl⟩ := h
  use hbound, hevents
  rfl

/-- What inserting the event of a job does. -/
theorem recorded_of_insertJobEvent {jobEvent : JobEvent} {jobAudit : AuditRecord}
    (h : db.insertJobEvent jobEvent jobAudit = .ok db') :
  Recorded db db'
  := by
  simp only [insertJobEvent, Except.bind_eq_ok_iff, Except.exists_unit_iff,
    rejectIf_eq_ok_iff, insertRow_eq_ok_iff, Except.pure_eq_ok_iff] at h
  obtain ⟨-, jobEvents, -, auditEvents, -, rfl⟩ := h
  rfl

/-- What inserting a session does. -/
theorem frame_of_insertSession {s : MachineSessionSnapshot}
    (h : db.insertSession s = .ok db') :
  db' = { db with sessions := db'.sessions } ∧ db.sessions.insert? s = some db'.sessions
  := by
  simp only [insertSession, Except.bind_eq_ok_iff, Except.exists_unit_iff,
    rejectIf_eq_ok_iff, insertRow_eq_ok_iff, Except.pure_eq_ok_iff] at h
  obtain ⟨-, -, sessions, hsessions, rfl⟩ := h
  use rfl

/-- The job with the outcome of an execution on it. -/
def outcomeRow (row : JobRecord.Fields) (t : MachineJobOutcomeTransition)
    (occurredAt : Timestamp) : JobRecord.Fields :=
  { row with
    state := t.val.resultState
    revision := t.val.expectedRevision + 1
    readySnapshot := some t.val.readySnapshot
    updatedAt := occurredAt }

/-- What leaving an outcome on a job does. -/
theorem frame_of_updateJob {t : MachineJobOutcomeTransition} {occurredAt : Timestamp}
    (h : db.updateJob t occurredAt = .ok db') :
  ∃ row ∈ db.jobs, row.jobId = t.val.jobId ∧ row.revision = t.val.expectedRevision ∧
    (row.readySnapshot = none ∨ row.readySnapshot = some t.val.readySnapshot) ∧
    db' = { db with jobs := db.jobs.set (outcomeRow row t occurredAt) }
  := by
  unfold updateJob at h
  split at h
  · cases h
  · rename_i row hrow
    obtain ⟨hmem, hid⟩ := Table.get?_eq_some_iff.mp hrow
    simp only [Except.unit_bind_eq_ok_iff, rejectIf_eq_ok_iff, Except.ok.injEq] at h
    obtain ⟨hrevision, hsnapshot, rfl⟩ := h
    use row, hmem, hid, Decidable.of_not_not hrevision
    constructor
    · by_cases hnone : row.readySnapshot = none
      · left
        apply hnone
      · right
        by_contra hne
        apply hsnapshot ⟨hnone, hne⟩
    · rfl

/-! ### Operations on executions -/

/-- An execution and its event were recorded as the next revision of a row. -/
structure Transitioned (db : Database) (prior : ExecutionRow) (e : MachineExecution)
    (db' : Database) : Prop where
  mem : prior ∈ db.executions
  progresses : Progresses prior.execution e
  owner : e.val.retirement = none → ∀ row ∈ db.executions,
    row.executionId ≠ e.val.executionId → ¬ row.Active
  executions : ∃ outcome, (prior.outcome ≠ none → outcome = prior.outcome) ∧
    db'.executions = db.executions.set ⟨e, outcome⟩

/-- A row with the fields of an unretired execution is active. -/
theorem active_of_retirement {row : ExecutionRow} (h : row.execution.val.retirement = none) :
  row.Active
  := by
  use h
  intro hcompleted
  obtain ⟨r, hr, -⟩ := MachineExecution.retirement_of_completed hcompleted
  rw [h] at hr
  cases hr

/-- A row is active exactly when its execution is not retired. -/
theorem active_iff {row : ExecutionRow} :
  row.Active ↔ row.execution.val.retirement = none
  := by
  constructor
  · rintro ⟨h, -⟩
    apply h
  · apply active_of_retirement

/-- An update does not change the outcome of a row that has one. -/
theorem outcome_of_checkUpdate {prior next : ExecutionRow}
    (h : db.checkUpdate prior next = .ok ()) (ho : prior.outcome ≠ none) :
  next.outcome = prior.outcome
  := by
  simp only [checkUpdate, Except.unit_bind_eq_ok_iff, rejectIf_eq_ok_iff, evidenceChanges,
    decide_eq_true_eq, not_or, not_and, not_not] at h
  apply h.2.2.2.2.2.2 ho

/-- An update by the next revision of the row it replaces. -/
theorem transitioned_of_revised {db' : Database} {prior : ExecutionRow} {p : MachineExecution}
    {outcome : Option MachineOutcome} (h : Revised db prior e outcome db')
    (hp : db.getExecution e.val.executionId = some p) (hprog : Progresses p e) :
  Transitioned db prior e db'
  := by
  obtain ⟨row, hrow, rfl, hid⟩ := getExecution_eq_some_iff.mp hp
  obtain rfl : row = prior :=
    Table.eq_of_key_eq hrow h.mem (hid.trans h.executionId.symm)
  constructor
  · apply hrow
  · apply hprog
  · intro hactive
    apply h.owner (active_of_retirement hactive)
  · use outcome <|> row.outcome
    constructor
    · intro ho
      apply outcome_of_checkUpdate h.checked ho
    · apply h.table

/-- What a transition does. -/
theorem of_transitionExecution (h : db.transitionExecution n e event audit = .ok db') :
  ∃ prior, prior.execution.val.revision = n ∧ Transitioned db prior e db' ∧
    db' = { db with
      executions := db'.executions
      events := db'.events
      auditEvents := db'.auditEvents
      jobEvents := db'.jobEvents }
  := by
  simp only [transitionExecution, Except.bind_eq_ok_iff, Except.exists_unit_iff] at h
  obtain ⟨p, hp, hprog, db₁, hupdate, hevent⟩ := h
  obtain ⟨hget, -⟩ := requirePrior_eq_ok hp
  obtain ⟨prior, hrevision, hrevised⟩ := revised_of_updateExecution hupdate
  obtain ⟨-, -, hrecorded⟩ := recorded_of_insertEvent hevent
  have htrans := transitioned_of_revised hrevised hget hprog
  have hexec : db'.executions = db₁.executions := by rw [hrecorded]
  use prior, hrevision
  constructor
  · constructor
    · apply htrans.mem
    · apply htrans.progresses
    · apply htrans.owner
    · rw [hexec]
      apply htrans.executions
  · rw [hrecorded, hrevised.frame]

/-- What creating an execution does. -/
theorem of_createExecution (h : db.createExecution e event audit = .ok db') :
  ∃ db₁, Inserted db e db₁ ∧ db'.executions = db₁.executions ∧
    e.val.revision = 0 ∧ e.val.phase = .preparingSession ∧ e.val.retirement = none ∧
    e.val.predecessorExecutionId = none ∧
    db' = { db with
      executions := db'.executions
      events := db'.events
      auditEvents := db'.auditEvents
      jobEvents := db'.jobEvents }
  := by
  simp only [createExecution, Except.bind_eq_ok_iff, Except.exists_unit_iff,
    rejectIf_eq_ok_iff, not_or, not_not, ne_eq] at h
  obtain ⟨⟨hrevision, hphase, hretirement, hpredecessor⟩, db₁, hinsert, hevent⟩ := h
  have hins := inserted_of_insertExecution hinsert
  obtain ⟨-, -, hrecorded⟩ := recorded_of_insertEvent hevent
  use db₁, hins
  refine ⟨?_, hrevision, hphase, hretirement, hpredecessor, ?_⟩
  · rw [hrecorded]
  · rw [hrecorded, hins.frame]

/-- What recording an opened session does. -/
theorem of_recordOpenedSession {session : MachineSessionSnapshot}
    (h : db.recordOpenedSession n e session event audit = .ok db') :
  ∃ prior, prior.execution.val.revision = n ∧ Transitioned db prior e db' ∧
    prior.execution.val.phase = .preparingSession ∧ e.val.phase = .awaitingHomeApproval ∧
    db' = { db with
      executions := db'.executions
      sessions := db'.sessions
      events := db'.events
      auditEvents := db'.auditEvents
      jobEvents := db'.jobEvents }
  := by
  simp only [recordOpenedSession, Except.bind_eq_ok_iff, Except.exists_unit_iff,
    rejectIf_eq_ok_iff, not_or, not_not, ne_eq] at h
  obtain ⟨p, hp, ⟨hphase, hnext, -, -⟩, hprog, db₁, hsession, db₂, hupdate, hevent⟩ := h
  obtain ⟨hget, -⟩ := requirePrior_eq_ok hp
  obtain ⟨hframe, -⟩ := frame_of_insertSession hsession
  obtain ⟨prior, hrevision, hrevised⟩ := revised_of_updateExecution hupdate
  obtain ⟨-, -, hrecorded⟩ := recorded_of_insertEvent hevent
  have hdb : db₁.executions = db.executions := by rw [hframe]
  have hget₁ : db₁.getExecution e.val.executionId = some p := by
    rw [getExecution, hdb]
    apply hget
  have htrans := transitioned_of_revised hrevised hget₁ hprog
  have hexec : db'.executions = db₂.executions := by rw [hrecorded]
  have hprior : prior.execution = p := by
    obtain ⟨row, hrow, rfl, hid⟩ := getExecution_eq_some_iff.mp hget₁
    rw [Table.eq_of_key_eq hrow hrevised.mem (hid.trans hrevised.executionId.symm)]
  use prior, hrevision
  refine ⟨?_, ?_, hnext, ?_⟩
  · constructor
    · rw [← hdb]
      apply htrans.mem
    · apply htrans.progresses
    · rw [← hdb]
      apply htrans.owner
    · rw [hexec, ← hdb]
      apply htrans.executions
  · rw [hprior]
    apply hphase
  · rw [hrecorded, hrevised.frame, hframe]

/-- The outcome of an execution was left on its job. -/
structure JobEnded (db : Database) (e : MachineExecution) (o : JobOutcome) (db' : Database) :
    Prop where
  phase : e.val.phase = o.outcome.val.kind.phase
  state : o.transition.val.resultState = o.outcome.val.kind.jobState
  job : ∃ row ∈ db.jobs, row.jobId = e.val.jobId ∧ row.postInit = .ok () ∧
    row.readySnapshot = some o.transition.val.readySnapshot ∧
    row.revision = o.transition.val.expectedRevision ∧
    db'.jobs = db.jobs.set (outcomeRow row o.transition o.outcome.val.occurredAt)

/-- The outcome of an execution is about the job of the execution. -/
theorem jobId_of_validateOutcome {o : JobOutcome} (h : validateOutcome e o = .ok ()) :
  o.transition.val.jobId = e.val.jobId
  := by
  simp only [validateOutcome, rejectIf_eq_ok_iff, not_or, not_not, ne_eq] at h
  have ht := o.transition.property
  have ho := o.outcome.property
  simp only [MachineJobOutcomeTransition.Fields.postInit, Except.unit_bind_eq_ok_iff,
    rejectIf_eq_ok_iff, not_not, ne_eq] at ht
  simp only [MachineOutcome.Fields.postInit, Except.unit_bind_eq_ok_iff,
    rejectIf_eq_ok_iff, not_not, ne_eq] at ho
  calc o.transition.val.jobId
      = o.transition.val.readySnapshot.val.jobId := ht.2.2.2.2.1.symm
    _ = o.outcome.val.readySnapshot.val.jobId := by rw [h.2.2.2.1]
    _ = o.outcome.val.jobId := ho.2.2.2.2.1
    _ = e.val.jobId := h.2.1

/-- A job that is read from its row is the row. -/
theorem of_getJob {jobId : String} {job : JobRecord} (h : db.getJob jobId = .ok (some job)) :
  job.val ∈ db.jobs ∧ job.val.jobId = jobId
  := by
  unfold getJob at h
  split at h
  · cases h
  · rename_i row hrow
    simp only [Except.bind_eq_ok_iff, Except.pure_eq_ok_iff, Option.some.injEq] at h
    obtain ⟨found, hfound, rfl⟩ := h
    rw [acceptIf_eq_ok_iff.mp hfound]
    apply Table.get?_eq_some_iff.mp hrow

/-- The job an outcome is checked against is readable and holds the snapshot of the
outcome. -/
theorem of_checkOutcomeJob {o : JobOutcome} (h : db.checkOutcomeJob o = .ok ()) :
  ∃ job : JobRecord, job.val ∈ db.jobs ∧ job.val.jobId = o.transition.val.jobId ∧
    job.val.revision = o.transition.val.expectedRevision ∧
    job.val.readySnapshot = some o.transition.val.readySnapshot
  := by
  simp only [checkOutcomeJob, Except.bind_eq_ok_iff] at h
  obtain ⟨found, hfound, h⟩ := h
  split at h
  · cases h
  · rename_i job
    simp only [Except.bind_eq_ok_iff, Except.exists_unit_iff, rejectIf_eq_ok_iff, not_or, not_not,
      ne_eq] at h
    obtain ⟨hmem, hid⟩ := of_getJob hfound
    use job, hmem, hid
    apply h.1

/-- The job a reconciliation is checked against is readable and holds the snapshot of the
outcome. -/
theorem of_checkRestartJob {o : JobOutcome} (h : db.checkRestartJob o = .ok ()) :
  ∃ job : JobRecord, job.val ∈ db.jobs ∧ job.val.jobId = o.transition.val.jobId ∧
    job.val.revision = o.transition.val.expectedRevision ∧
    job.val.readySnapshot = some o.transition.val.readySnapshot
  := by
  simp only [checkRestartJob, Except.bind_eq_ok_iff] at h
  obtain ⟨found, hfound, h⟩ := h
  split at h
  · cases h
  · rename_i job
    simp only [rejectIf_eq_ok_iff, not_or, not_not, ne_eq] at h
    obtain ⟨hmem, hid⟩ := of_getJob hfound
    use job, hmem, hid, h.1, h.2.1

/-- The outcome of an execution that was left on its job. -/
theorem jobEnded_of_updateJob {db₀ db₁ : Database} {o : JobOutcome}
    (houtcome : validateOutcome e o = .ok ())
    (hjob : ∃ job : JobRecord, job.val ∈ db₀.jobs ∧
      job.val.jobId = o.transition.val.jobId ∧
      job.val.revision = o.transition.val.expectedRevision ∧
      job.val.readySnapshot = some o.transition.val.readySnapshot)
    (hjobs : db.jobs = db₀.jobs)
    (hupdate : db.updateJob o.transition o.outcome.val.occurredAt = .ok db₁)
    (hafter : db'.jobs = db₁.jobs) :
  JobEnded db₀ e o db'
  := by
  have hjobId := jobId_of_validateOutcome houtcome
  simp only [validateOutcome, rejectIf_eq_ok_iff, not_or, not_not, ne_eq] at houtcome
  obtain ⟨job, hmem, hid, hrevision, hsnapshot⟩ := hjob
  obtain ⟨row, hrow, hrowid, -, -, hframe⟩ := frame_of_updateJob hupdate
  rw [hjobs] at hrow
  obtain rfl : row = job.val := Table.eq_of_key_eq hrow hmem (hrowid.trans hid.symm)
  constructor
  · apply houtcome.2.2.2.2.2
  · apply houtcome.2.2.2.2.1.symm
  · use job.val, hmem
    refine ⟨hid.trans hjobId, job.property, hsnapshot, hrevision, ?_⟩
    rw [hafter, hframe, ← hjobs]

/-- What committing an outcome does. -/
theorem of_commitMachineOutcome {o : JobOutcome} {session : Option MachineSessionSnapshot}
    (h : db.commitMachineOutcome n e o event audit session = .ok db') :
  ∃ prior, prior.execution.val.revision = n ∧ Transitioned db prior e db' ∧
    JobEnded db e o db' ∧
    db' = { db with
      jobs := db'.jobs
      executions := db'.executions
      sessions := db'.sessions
      events := db'.events
      auditEvents := db'.auditEvents
      jobEvents := db'.jobEvents }
  := by
  simp only [commitMachineOutcome, Except.bind_eq_ok_iff, Except.exists_unit_iff] at h
  obtain ⟨p, hp, hprog, houtcome, hjob, -, db₁, hsession, db₂, hupdate, db₃, hjobs, db₄,
    hevent, hjobEvent⟩ := h
  obtain ⟨hget, -⟩ := requirePrior_eq_ok hp
  have hframe : db₁ = { db with sessions := db₁.sessions } := by
    unfold insertOutcomeSession at hsession
    split at hsession
    · cases hsession
      rfl
    · simp only [Except.bind_eq_ok_iff, Except.exists_unit_iff] at hsession
      apply (frame_of_insertSession hsession.2).1
  obtain ⟨prior, hrevision, hrevised⟩ := revised_of_updateExecution hupdate
  obtain ⟨row, -, -, -, -, hjobframe⟩ := frame_of_updateJob hjobs
  obtain ⟨-, -, hrecorded⟩ := recorded_of_insertEvent hevent
  have hrecorded' := recorded_of_insertJobEvent hjobEvent
  have hdb : db₁.executions = db.executions := by rw [hframe]
  have hget₁ : db₁.getExecution e.val.executionId = some p := by
    rw [getExecution, hdb]
    apply hget
  have htrans := transitioned_of_revised hrevised hget₁ hprog
  have hexec : db'.executions = db₂.executions := by rw [hrecorded', hrecorded, hjobframe]
  use prior, hrevision
  refine ⟨?_, ?_, ?_⟩
  · constructor
    · rw [← hdb]
      apply htrans.mem
    · apply htrans.progresses
    · rw [← hdb]
      apply htrans.owner
    · rw [hexec, ← hdb]
      apply htrans.executions
  · apply jobEnded_of_updateJob houtcome (of_checkOutcomeJob hjob) _ hjobs
    · rw [hrecorded', hrecorded]
    · rw [hrevised.frame, hframe]
  · rw [hrecorded', hrecorded, hjobframe, hrevised.frame, hframe]

/-- What a transfer of the machine does. -/
theorem of_transferOwner {successor : MachineExecution} {successorEvent : MachineEvent}
    {successorAudit : MachineAuditPayload}
    (h : db.transferOwner n e successor event successorEvent audit successorAudit = .ok db') :
  ∃ prior db₁ db₂, prior.execution.val.revision = n ∧ Transitioned db prior e db₁ ∧
    prior.execution.val.phase = .recoveryRequired ∧
    db₁ = { db with executions := db₁.executions } ∧ Inserted db₁ successor db₂ ∧
    successor.val.revision = 0 ∧ successor.val.phase = .preparingSession ∧
    successor.val.predecessorExecutionId = some e.val.executionId ∧
    (∃ r, e.val.retirement = some r ∧ r.val.disposition = .transferred ∧
      r.val.successorExecutionId = some successor.val.executionId) ∧
    FrozenFields prior.execution.val successor.val ∧
    db'.executions = db₂.executions ∧
    db' = { db with
      executions := db'.executions
      events := db'.events
      auditEvents := db'.auditEvents
      jobEvents := db'.jobEvents }
  := by
  simp only [transferOwner, Except.bind_eq_ok_iff, Except.exists_unit_iff, rejectIf_eq_ok_iff,
    not_or, not_not, ne_eq] at h
  obtain ⟨p, hp, hprog, ⟨hretirement, hpredecessor⟩,
    ⟨hphase, -, hzero, hpreparing, -, hfrozen⟩, db₁, hupdate, db₂, hinsert, db₃, hevent,
    hevent'⟩ := h
  obtain ⟨hget, -⟩ := requirePrior_eq_ok hp
  obtain ⟨prior, hrevision, hrevised⟩ := revised_of_updateExecution hupdate
  have htrans := transitioned_of_revised hrevised hget hprog
  have hins := inserted_of_insertExecution hinsert
  obtain ⟨-, -, hrecorded⟩ := recorded_of_insertEvent hevent
  obtain ⟨-, -, hrecorded'⟩ := recorded_of_insertEvent hevent'
  have hprior : prior.execution = p := by
    obtain ⟨row, hrow, rfl, hid⟩ := getExecution_eq_some_iff.mp hget
    rw [Table.eq_of_key_eq hrow hrevised.mem (hid.trans hrevised.executionId.symm)]
  use prior, db₁, db₂, hrevision, htrans
  refine ⟨?_, hrevised.frame, hins, hzero, hpreparing, hpredecessor, ?_, ?_, ?_, ?_⟩
  · rw [hprior]
    apply hphase
  · rw [Option.any_eq_true] at hretirement
    obtain ⟨r, hr, hdisposition⟩ := hretirement
    use r, hr
    apply of_decide_eq_true hdisposition
  · rw [hprior]
    apply hfrozen
  · rw [hrecorded', hrecorded]
  · rw [hrecorded', hrecorded, hins.frame, hrevised.frame]

/-- What a reconciliation does: it expires the pending challenges of the execution and
invalidates its unclaimed admissions, and unless it repeats one it also freezes the
execution in recovery. -/
theorem of_reconcileRestart {outcome : Option JobOutcome}
    (h : db.reconcileRestart n e event audit outcome = .ok db') :
  e.val.phase = .recoveryRequired ∧
    db'.challenges =
      (db.expireChallenges e.val.executionId event.val.occurredAt).challenges ∧
    db'.requests = (db.invalidateAdmissions e.val.executionId event.val.occurredAt).requests ∧
    ((∃ row ∈ db.executions, row.execution = e ∧ e.val.retirement = none ∧ outcome = none ∧
        db'.executions = db.executions ∧ db'.jobs = db.jobs) ∨
      ∃ prior, prior.execution.val.revision = n ∧ Transitioned db prior e db' ∧
        prior.execution.val.phase ≠ .recoveryRequired ∧
        ((outcome = none ∧ db'.jobs = db.jobs) ∨ ∃ o, outcome = some o ∧ JobEnded db e o db')) ∧
    db'.sessions = db.sessions
  := by
  simp only [reconcileRestart, Except.bind_eq_ok_iff, Except.exists_unit_iff,
    rejectIf_eq_ok_iff, not_or, not_not, ne_eq, checkSome_eq_ok_iff] at h
  obtain ⟨p, hp, hprog, ⟨hphase, -⟩, hrepeated, houtcome, db₁, hupdate, db₂, hjobs, db₃, hevent,
    hjobEvent⟩ := h
  obtain ⟨hget, hpn⟩ := requirePrior_eq_ok hp
  obtain ⟨-, -, hrecorded⟩ := recorded_of_insertEvent hevent
  have hrecorded' : Recorded db₃ db' := by
    cases outcome with
    | none =>
        cases hjobEvent
        rfl
    | some o => apply recorded_of_insertJobEvent hjobEvent
  have hframe₂ : db₂ = { db₁ with jobs := db₂.jobs } := by
    cases outcome with
    | none =>
        cases hjobs
        rfl
    | some o =>
        obtain ⟨row, -, -, -, -, hjobframe⟩ := frame_of_updateJob hjobs
        rw [hjobframe]
  have hframe₁ : db₁ = { (db.expireChallenges e.val.executionId event.val.occurredAt
      ).invalidateAdmissions e.val.executionId event.val.occurredAt with
      executions := db₁.executions } := by
    unfold updateReconciled at hupdate
    split at hupdate
    · cases hupdate
      rfl
    · obtain ⟨prior, -, hrevised⟩ := revised_of_updateExecution hupdate
      apply hrevised.frame
  have hexec : db'.executions = db₁.executions := by rw [hrecorded', hrecorded, hframe₂]
  have hjobsEq : db'.jobs = db₂.jobs := by rw [hrecorded', hrecorded]
  refine ⟨hphase, ?_, ?_, ?_, ?_⟩
  · rw [hrecorded', hrecorded, hframe₂, hframe₁]
    rfl
  · rw [hrecorded', hrecorded, hframe₂, hframe₁]
    rfl
  · by_cases hrec : p.val.phase = .recoveryRequired
    · -- A repeated reconciliation keeps the execution and has no outcome.
      left
      rw [updateReconciled, if_pos hrec, Except.ok.injEq] at hupdate
      rw [checkReconciled, if_pos hrec] at hprog
      simp only [checkRepeated, rejectIf_eq_ok_iff, not_or, not_not, ne_eq] at hprog
      obtain ⟨hretirement, rfl, -⟩ := hprog
      obtain ⟨row, hrow, hrowe, -⟩ := getExecution_eq_some_iff.mp hget
      have hnone : outcome = none := by
        cases outcome with
        | none => rfl
        | some o => exact absurd ⟨hrec, rfl⟩ hrepeated
      subst hnone
      simp only [updateReconciledJob, Except.ok.injEq] at hjobs
      use row, hrow, hrowe, hretirement, rfl
      constructor
      · rw [hexec, ← hupdate]
        rfl
      · rw [hjobsEq, ← hjobs, ← hupdate]
        rfl
    · right
      rw [updateReconciled, if_neg hrec] at hupdate
      rw [checkReconciled, if_neg hrec] at hprog
      obtain ⟨prior, hrevision, hrevised⟩ := revised_of_updateExecution hupdate
      have htrans := transitioned_of_revised hrevised hget hprog
      have hprior : prior.execution = p := by
        obtain ⟨row, hrow, rfl, hid⟩ := getExecution_eq_some_iff.mp hget
        rw [Table.eq_of_key_eq hrow hrevised.mem (hid.trans hrevised.executionId.symm)]
      use prior, hrevision
      refine ⟨?_, ?_, ?_⟩
      · constructor
        · apply htrans.mem
        · apply htrans.progresses
        · apply htrans.owner
        · rw [hexec]
          apply htrans.executions
      · rw [hprior]
        apply hrec
      · cases outcome with
        | none =>
            left
            simp only [updateReconciledJob, Except.ok.injEq] at hjobs
            refine ⟨rfl, ?_⟩
            rw [hjobsEq, ← hjobs, hframe₁]
            rfl
        | some o =>
            right
            obtain ⟨hvalid, hrestart, -⟩ := houtcome o rfl
            use o, rfl
            apply jobEnded_of_updateJob hvalid (of_checkRestartJob hrestart) _ hjobs hjobsEq
            rw [hframe₁]
            rfl
  · rw [hrecorded', hrecorded, hframe₂, hframe₁]
    rfl

/-! ### Operations on requests -/

/-- What reserving a request does: the request is already there, with the same command and
the same arguments, or it is stored under an admission that no other request has. -/
theorem of_reserveRequest {r : MachineRequestRecord} {found : MachineRequestReservation}
    (h : db.reserveRequest r = .ok (found, db')) :
  r.validateRequest = .ok () ∧
    ((found.created = false ∧ db.getRequest r.key = some found.record ∧
        found.record.command = r.command ∧ found.record.argumentDigest = r.argumentDigest ∧
        db' = db) ∨
      (found = ⟨r, true⟩ ∧ db.requests.insert? r = some db'.requests ∧
        (r.admissionId ≠ none → ∀ row ∈ db.requests, row.admissionId ≠ r.admissionId) ∧
        db' = { db with requests := db'.requests }))
  := by
  simp only [reserveRequest, Except.unit_bind_eq_ok_iff] at h
  obtain ⟨hvalid, h⟩ := h
  use hvalid
  split at h
  · rename_i existing hexisting
    simp only [Except.unit_bind_eq_ok_iff, rejectIf_eq_ok_iff, Except.pure_eq_ok_iff, not_or,
      not_not, ne_eq, Prod.mk.injEq] at h
    obtain ⟨⟨hcommand, hdigest⟩, rfl, rfl⟩ := h
    left
    refine ⟨rfl, hexisting, hcommand, hdigest, rfl⟩
  · simp only [insertRequest, Except.bind_eq_ok_iff, Except.exists_unit_iff, rejectIf_eq_ok_iff,
      insertRow_eq_ok_iff, Except.pure_eq_ok_iff, Prod.mk.injEq] at h
    obtain ⟨db₁, ⟨-, hadmission, -, -, requests, htable, rfl⟩, rfl, rfl⟩ := h
    right
    refine ⟨rfl, htable, ?_, rfl⟩
    intro hsome row hrow heq
    apply hadmission ⟨hsome, row, hrow, heq⟩

/-- What storing the response of a request does. -/
theorem of_completeRequest {key : MachineRequestKey} {response : MachineResponse}
    {completedAt : Timestamp} {completed : MachineRequestRecord}
    (h : db.completeRequest key response completedAt = .ok (completed, db')) :
  ∃ r ∈ db.requests, r.key = key ∧ r.response = none ∧ r.invalidatedAt = none ∧
    completed = { r with response := some response, completedAt := some completedAt } ∧
    db' = { db with requests := db.requests.set completed }
  := by
  unfold completeRequest at h
  split at h
  · cases h
  · rename_i r hr
    obtain ⟨hmem, hkey⟩ := Table.get?_eq_some_iff.mp hr
    simp only [Except.unit_bind_eq_ok_iff, rejectIf_eq_ok_iff, Except.pure_eq_ok_iff, not_or,
      not_not, ne_eq, Prod.mk.injEq] at h
    obtain ⟨⟨hresponse, hinvalidated⟩, rfl, rfl⟩ := h
    use r, hmem, hkey, hresponse, hinvalidated

/-- What claiming an admission does: the capability is the one stored, neither claimed nor
invalidated, and its execution is still what it was admitted for. -/
theorem of_claimRequest {c : MachineAdmissionCapability} {claimedAt : Timestamp}
    {claimed : MachineRequestRecord} (h : db.claimRequest c claimedAt = .ok (claimed, db')) :
  ∃ r ∈ db.requests, r.key = c.key ∧ c.Matches r ∧ r.claimedAt = none ∧
    r.invalidatedAt = none ∧
    (∃ row ∈ db.executions, row.executionId = c.executionId ∧
      CurrentAuthority c row.execution.val) ∧
    claimed = { r with claimedAt := some claimedAt } ∧
    db' = { db with requests := db.requests.set claimed }
  := by
  simp only [claimRequest, Except.unit_bind_eq_ok_iff] at h
  obtain ⟨-, h⟩ := h
  split at h
  · cases h
  · rename_i r hr
    obtain ⟨hmem, hkey⟩ := Table.get?_eq_some_iff.mp hr
    simp only [Except.unit_bind_eq_ok_iff, rejectIf_eq_ok_iff, not_not, ne_eq] at h
    obtain ⟨hmatches, hclaimed, hinvalidated, h⟩ := h
    split at h
    · cases h
    · rename_i e he
      obtain ⟨row, hrow, rfl, hid⟩ := getExecution_eq_some_iff.mp he
      simp only [Except.unit_bind_eq_ok_iff, rejectIf_eq_ok_iff, Except.pure_eq_ok_iff,
        not_not, Prod.mk.injEq] at h
      obtain ⟨hcurrent, -, rfl, rfl⟩ := h
      use r, hmem, hkey, hmatches, hclaimed, hinvalidated
      refine ⟨⟨row, hrow, hid, hcurrent⟩, rfl, rfl⟩

/-! ### Operations on challenges -/

/-- What replacing a challenge by a decision on it does. -/
theorem of_updateChallenge {d : MachineApprovalDecision} {replayed : String}
    (h : db.updateChallenge d replayed = .ok db') :
  db.challenges.get? d.result.val.challengeId = some d.expected.val ∧
    db' = { db with challenges := db.challenges.set d.result.val }
  := by
  unfold updateChallenge at h
  split at h
  · next hrow =>
      rw [Except.ok.injEq] at h
      use hrow, h.symm
  · cases h

/-- What deciding on a challenge does. -/
theorem of_decideChallenge {d : MachineApprovalDecision} (h : db.decideChallenge d = .ok db') :
  db.bindsCurrent d.expected.val.binding.val = true ∧
    db.challenges.get? d.result.val.challengeId = some d.expected.val ∧
    db' = { db with challenges := db.challenges.set d.result.val }
  := by
  simp only [decideChallenge, requireCurrentApprovalBinding, Except.unit_bind_eq_ok_iff,
    rejectIf_eq_ok_iff, Bool.not_eq_false] at h
  use h.1
  apply of_updateChallenge h.2

/-- What inserting a challenge does. -/
theorem of_insertChallenge {c : MachineApprovalChallenge} (h : db.insertChallenge c = .ok db') :
  db.bindsCurrent c.val.binding.val = true ∧
    (c.val.status = .pending → ∀ row ∈ db.challenges, row.status = .pending →
      ¬ (row.binding.val.executionId = c.val.binding.val.executionId ∧
        row.binding.val.action = c.val.binding.val.action)) ∧
    db.challenges.insert? c.val = some db'.challenges ∧
    db' = { db with challenges := db'.challenges }
  := by
  simp only [insertChallenge, Except.bind_eq_ok_iff, Except.exists_unit_iff, rejectIf_eq_ok_iff,
    insertRow_eq_ok_iff, Except.pure_eq_ok_iff, Bool.not_eq_false] at h
  obtain ⟨hcurrent, hpending, challenges, htable, rfl⟩ := h
  refine ⟨hcurrent, ?_, htable, rfl⟩
  intro hc row hrow hrowpending hsame
  apply hpending ⟨hc, row, hrow, hrowpending, hsame⟩

/-- What issuing a challenge does: a pending challenge may be decided in its favour, and
the challenge is inserted. -/
theorem of_issueChallenge {c : MachineApprovalChallenge}
    {replacement : Option MachineApprovalDecision}
    {recorded : Option (MachineEvent × MachineAuditPayload)}
    (h : db.issueChallenge c replacement recorded = .ok db') :
  c.val.status = .pending ∧ ∃ db₁ db₂,
    ((replacement = none ∧ db₁ = db) ∨
      ∃ d, replacement = some d ∧
        db.challenges.get? d.result.val.challengeId = some d.expected.val ∧
        db₁ = { db with challenges := db.challenges.set d.result.val }) ∧
    db₁.insertChallenge c = .ok db₂ ∧ Recorded db₂ db'
  := by
  simp only [issueChallenge, Except.bind_eq_ok_iff, Except.exists_unit_iff, rejectIf_eq_ok_iff,
    not_not, ne_eq] at h
  obtain ⟨hpending, -, db₁, hreplace, db₂, hinsert, hrecord⟩ := h
  use hpending, db₁, db₂
  refine ⟨?_, hinsert, ?_⟩
  · cases replacement with
    | none =>
        left
        rw [replaceChallenge, Except.ok.injEq] at hreplace
        refine ⟨rfl, hreplace.symm⟩
    | some d =>
        right
        simp only [replaceChallenge, Except.unit_bind_eq_ok_iff] at hreplace
        use d, rfl
        apply of_updateChallenge hreplace.2.2
  · unfold recordChallengeEvent at hrecord
    split at hrecord
    · apply (recorded_of_insertEvent hrecord).2.2
    · rw [Except.ok.injEq] at hrecord
      rw [← hrecord]
      rfl

/-! ### Progress and lifecycle -/

/-- What recording progress does. -/
theorem of_appendProgress {progressId : String} {p : MachineProgress}
    (h : db.appendProgress progressId p = .ok db') :
  db.progress.insert? (progressId, p) = some db'.progress ∧
    db' = { db with progress := db'.progress }
  := by
  simp only [appendProgress, Except.bind_eq_ok_iff, Except.exists_unit_iff,
    insertRow_eq_ok_iff, Except.pure_eq_ok_iff] at h
  obtain ⟨-, progress, htable, rfl⟩ := h
  use htable

/-- What recording an event of a waiting execution does. -/
theorem of_recordLifecycleEvent (h : db.recordLifecycleEvent e event audit = .ok db') :
  Recorded db db'
  := by
  simp only [recordLifecycleEvent, Except.unit_bind_eq_ok_iff] at h
  apply (recorded_of_insertEvent h.2).2.2

end Database

end DrawingMachine
