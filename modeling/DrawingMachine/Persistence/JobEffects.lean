import DrawingMachine.Persistence.JobStore
import DrawingMachine.Persistence.Runs

/-!
# What is written to the jobs

For every write of either repository, what it does to the jobs, to their events and to the
audit log. A call of the machine leaves the jobs and their events as they are, unless it
leaves the outcome of an execution on a job; a change of a job comes with the event that
describes it and with the audit record of the event.
-/

namespace DrawingMachine

namespace Database

variable {db db' : Database} {e : MachineExecution} {n : Nat} {event : MachineEvent}
  {audit : MachineAuditPayload}

/-! ### Writes that leave the jobs -/

/-- The jobs and their events are left as they are, and the audit log only grows. -/
structure Quiet (db db' : Database) : Prop where
  jobs : db'.jobs = db.jobs
  jobEvents : db'.jobEvents = db.jobEvents
  audits : ∀ a ∈ db.auditEvents, a ∈ db'.auditEvents

/-- Nothing is written. -/
theorem Quiet.refl (db : Database) : Quiet db db where
  jobs := rfl
  jobEvents := rfl
  audits := fun _ h => h

/-- Two writes after each other. -/
theorem Quiet.trans {db₁ : Database} (h : Quiet db db₁) (h' : Quiet db₁ db') : Quiet db db' where
  jobs := h'.jobs.trans h.jobs
  jobEvents := h'.jobEvents.trans h.jobEvents
  audits := fun a ha => h'.audits a (h.audits a ha)

/-- A write to tables that have nothing to do with the jobs. -/
theorem quiet_of_frame (hjobs : db'.jobs = db.jobs) (hevents : db'.jobEvents = db.jobEvents)
    (haudits : db'.auditEvents = db.auditEvents) :
  Quiet db db'
  := by
  constructor
  · apply hjobs
  · apply hevents
  · rw [haudits]
    intro a ha
    apply ha

/-- An event of the machine. -/
theorem quiet_of_insertEvent (h : db.insertEvent e event audit = .ok db') : Quiet db db' := by
  simp only [insertEvent, Except.bind_eq_ok_iff, Except.exists_unit_iff,
    rejectIf_eq_ok_iff, insertRow_eq_ok_iff, Except.pure_eq_ok_iff] at h
  obtain ⟨-, -, events, -, auditEvents, haudit, rfl⟩ := h
  constructor
  · rfl
  · rfl
  · intro a ha
    apply (Table.mem_of_insert? haudit).mpr
    left
    apply ha

/-- A new execution. -/
theorem quiet_of_insertExecution (h : db.insertExecution e = .ok db') : Quiet db db' := by
  have hframe := (inserted_of_insertExecution h).frame
  apply quiet_of_frame <;> rw [hframe]

/-- A revised execution. -/
theorem quiet_of_updateExecution {outcome : Option MachineOutcome}
    (h : db.updateExecution n e outcome = .ok db') :
  Quiet db db'
  := by
  obtain ⟨prior, -, hrevised⟩ := revised_of_updateExecution h
  apply quiet_of_frame <;> rw [hrevised.frame]

/-- A session. -/
theorem quiet_of_insertSession {s : MachineSessionSnapshot} (h : db.insertSession s = .ok db') :
  Quiet db db'
  := by
  obtain ⟨hframe, -⟩ := frame_of_insertSession h
  apply quiet_of_frame <;> rw [hframe]

/-- The next revision of an execution. -/
theorem quiet_of_transitionExecution (h : db.transitionExecution n e event audit = .ok db') :
  Quiet db db'
  := by
  simp only [transitionExecution, Except.bind_eq_ok_iff, Except.exists_unit_iff] at h
  obtain ⟨_, -, -, db₁, hupdate, hevent⟩ := h
  apply (quiet_of_updateExecution hupdate).trans
  apply quiet_of_insertEvent hevent

/-- The event of a challenge. -/
theorem quiet_of_recordChallengeEvent {c : MachineApprovalChallenge}
    {recorded : Option (MachineEvent × MachineAuditPayload)}
    (h : db.recordChallengeEvent c recorded = .ok db') :
  Quiet db db'
  := by
  unfold recordChallengeEvent at h
  split at h
  · apply quiet_of_insertEvent h
  · cases h
    apply Quiet.refl

/-- A new challenge. -/
theorem quiet_of_issueChallenge {c : MachineApprovalChallenge}
    {replacement : Option MachineApprovalDecision}
    {recorded : Option (MachineEvent × MachineAuditPayload)}
    (h : db.issueChallenge c replacement recorded = .ok db') :
  Quiet db db'
  := by
  simp only [issueChallenge, Except.bind_eq_ok_iff, Except.exists_unit_iff] at h
  obtain ⟨-, -, db₁, hreplace, db₂, hinsert, hrecord⟩ := h
  have hreplaced : Quiet db db₁ := by
    cases replacement with
    | none =>
        cases hreplace
        apply Quiet.refl
    | some d =>
        simp only [replaceChallenge, Except.unit_bind_eq_ok_iff] at hreplace
        obtain ⟨-, rfl⟩ := of_updateChallenge hreplace.2.2
        apply quiet_of_frame <;> rfl
  obtain ⟨-, -, -, hframe⟩ := of_insertChallenge hinsert
  have hinserted : Quiet db₁ db₂ := by
    apply quiet_of_frame <;> rw [hframe]
  apply hreplaced.trans
  apply hinserted.trans
  apply quiet_of_recordChallengeEvent hrecord

end Database

namespace Call

/-- The call leaves the outcome of an execution on its job. -/
def outcome : Call → Option Database.JobOutcome
  | .commitMachineOutcome _ _ o _ _ _ => some o
  | .reconcileRestart _ _ _ _ o => o
  | _ => none

end Call

namespace Database

variable {db db' : Database} {e : MachineExecution} {n : Nat} {event : MachineEvent}
  {audit : MachineAuditPayload}

/-- A reconciliation without an outcome. -/
theorem quiet_of_reconcileRestart (h : db.reconcileRestart n e event audit none = .ok db') :
  Quiet db db'
  := by
  simp only [reconcileRestart, Except.bind_eq_ok_iff, Except.exists_unit_iff] at h
  obtain ⟨prior, -, -, -, -, -, db₁, hupdate, db₂, hjobs, db₃, hevent, hjobEvent⟩ := h
  cases hjobs
  cases hjobEvent
  have hupdated : Quiet db db₁ := by
    unfold updateReconciled at hupdate
    split at hupdate
    · cases hupdate
      apply quiet_of_frame <;> rfl
    · apply Quiet.trans _ (quiet_of_updateExecution hupdate)
      apply quiet_of_frame <;> rfl
  apply hupdated.trans
  apply quiet_of_insertEvent hevent

/-- A call without an outcome. -/
theorem quiet_of_call {c : Call} (h : c.apply db = .ok db') (hc : c.outcome = none) :
  Quiet db db'
  := by
  cases c with
  | createExecution e event audit =>
      simp only [Call.apply, createExecution, Except.bind_eq_ok_iff, Except.exists_unit_iff] at h
      obtain ⟨-, db₁, hinsert, hevent⟩ := h
      apply (quiet_of_insertExecution hinsert).trans
      apply quiet_of_insertEvent hevent
  | recordOpenedSession n e session event audit =>
      simp only [Call.apply, recordOpenedSession, Except.bind_eq_ok_iff,
        Except.exists_unit_iff] at h
      obtain ⟨_, -, -, -, db₁, hsession, db₂, hupdate, hevent⟩ := h
      apply (quiet_of_insertSession hsession).trans
      apply (quiet_of_updateExecution hupdate).trans
      apply quiet_of_insertEvent hevent
  | transitionExecution n e event audit => apply quiet_of_transitionExecution h
  | commitMachineOutcome n e o event audit session => cases hc
  | reconcileRestart n e event audit outcome =>
      cases outcome with
      | none => apply quiet_of_reconcileRestart h
      | some o => cases hc
  | releaseOwner n e event audit =>
      simp only [Call.apply, releaseOwner, Except.unit_bind_eq_ok_iff] at h
      apply quiet_of_transitionExecution h.2
  | transferOwner n predecessor successor predecessorEvent successorEvent predecessorAudit
      successorAudit =>
      simp only [Call.apply, transferOwner, Except.bind_eq_ok_iff, Except.exists_unit_iff] at h
      obtain ⟨_, -, -, -, -, db₁, hupdate, db₂, hinsert, db₃, hevent, hevent'⟩ := h
      apply (quiet_of_updateExecution hupdate).trans
      apply (quiet_of_insertExecution hinsert).trans
      apply (quiet_of_insertEvent hevent).trans
      apply quiet_of_insertEvent hevent'
  | issueChallenge c replacement recorded => apply quiet_of_issueChallenge h
  | decideChallenge d =>
      obtain ⟨-, -, rfl⟩ := of_decideChallenge h
      apply quiet_of_frame <;> rfl
  | reserveRequest r =>
      simp only [Call.apply, Except.bind_eq_ok_iff, Except.pure_eq_ok_iff] at h
      obtain ⟨⟨found, db₁⟩, hreserved, rfl⟩ := h
      obtain ⟨-, ⟨-, -, -, -, rfl⟩ | ⟨-, -, -, hframe⟩⟩ := of_reserveRequest hreserved
      · apply Quiet.refl
      · apply quiet_of_frame <;> rw [hframe]
  | completeRequest key response completedAt =>
      simp only [Call.apply, Except.bind_eq_ok_iff, Except.pure_eq_ok_iff] at h
      obtain ⟨⟨completed, db₁⟩, hcompleted, rfl⟩ := h
      obtain ⟨r, -, -, -, -, -, rfl⟩ := of_completeRequest hcompleted
      apply quiet_of_frame <;> rfl
  | claimRequest c claimedAt =>
      simp only [Call.apply, Except.bind_eq_ok_iff, Except.pure_eq_ok_iff] at h
      obtain ⟨⟨claimed, db₁⟩, hclaimed, rfl⟩ := h
      obtain ⟨r, -, -, -, -, -, -, -, rfl⟩ := of_claimRequest hclaimed
      apply quiet_of_frame <;> rfl
  | appendProgress progressId p =>
      obtain ⟨-, hframe⟩ := of_appendProgress h
      apply quiet_of_frame <;> rw [hframe]
  | recordLifecycleEvent e event audit =>
      simp only [Call.apply, recordLifecycleEvent, Except.unit_bind_eq_ok_iff] at h
      apply quiet_of_insertEvent h.2

/-! ### Writes that change a job -/

/-- An event of a job was recorded, with its audit record. -/
structure Logged (db : Database) (event : JobEvent) (db' : Database) : Prop where
  jobEvents : db.jobEvents.insert? event = some db'.jobEvents
  audits : ∀ a ∈ db.auditEvents, a ∈ db'.auditEvents
  audited : ∃ a ∈ db'.auditEvents, a.eventId = event.val.eventId ∧
    a.eventType = event.val.eventType ∧ a.requestId = event.val.requestId

/-- A job was changed, with the event that describes the change. -/
structure Changed (db : Database) (row row' : JobRecord.Fields) (event : JobEvent)
    (db' : Database) : Prop where
  mem : row ∈ db.jobs
  jobId : row'.jobId = row.jobId
  kind : row'.kind = row.kind
  revision : row'.revision = row.revision + 1
  snapshot : row.readySnapshot ≠ none → row'.readySnapshot = row.readySnapshot
  jobs : db'.jobs = db.jobs.set row'
  eventJob : event.val.jobId = row.jobId
  eventRevision : event.val.jobRevision = row.revision + 1
  eventPrior : event.val.priorState = some row.state
  eventResult : event.val.resultState = row'.state
  logged : Logged db event db'

/-- The recording of the event of a job by the machine. -/
theorem logged_of_insertJobEvent {jobEvent : JobEvent} {jobAudit : AuditRecord}
    (h : db.insertJobEvent jobEvent jobAudit = .ok db')
    (hmatch : assertAuditMatchesEvent jobEvent jobAudit = .ok ()) :
  Logged db jobEvent db'
  := by
  simp only [insertJobEvent, Except.bind_eq_ok_iff, Except.exists_unit_iff,
    rejectIf_eq_ok_iff, insertRow_eq_ok_iff, Except.pure_eq_ok_iff] at h
  obtain ⟨-, jobEvents, hevents, auditEvents, haudit, rfl⟩ := h
  simp only [assertAuditMatchesEvent, Except.unit_bind_eq_ok_iff, rejectIf_eq_ok_iff, not_or,
    not_not, ne_eq] at hmatch
  obtain ⟨-, ⟨hid, htype, hrequest⟩, -⟩ := hmatch
  constructor
  · apply hevents
  · intro a ha
    apply (Table.mem_of_insert? haudit).mpr
    left
    apply ha
  · refine ⟨_, (Table.mem_of_insert? haudit).mpr (.inr rfl), hid, htype, hrequest⟩

/-- The end of an execution was recorded, together with the outcome on its job. -/
structure Ended (db : Database) (prior : ExecutionRow) (e : MachineExecution) (o : JobOutcome)
    (row : JobRecord.Fields) (db' : Database) : Prop where
  mem : prior ∈ db.executions
  progresses : Progresses prior.execution e
  executionId : o.outcome.val.executionId = e.val.executionId
  fresh : prior.outcome ≠ none → prior.outcome = some o.outcome
  revision : o.outcome.val.executionRevision = e.val.revision
  phase : e.val.phase = o.outcome.val.kind.phase
  executions : db'.executions = db.executions.set ⟨e, some o.outcome⟩
  jobId : row.jobId = e.val.jobId
  state : o.transition.val.resultState = o.outcome.val.kind.jobState
  changed : Changed db row (outcomeRow row o.transition o.outcome.val.occurredAt) o.event db'

/-- The job of an outcome, as it was checked. -/
structure OutcomeJob (db : Database) (o : JobOutcome) (row : JobRecord.Fields) : Prop where
  mem : row ∈ db.jobs
  jobId : row.jobId = o.transition.val.jobId
  revision : row.revision = o.transition.val.expectedRevision
  snapshot : row.readySnapshot = some o.transition.val.readySnapshot
  eventJob : o.event.val.jobId = row.jobId
  eventRevision : o.event.val.jobRevision = row.revision + 1
  eventPrior : o.event.val.priorState = some row.state
  eventResult : o.event.val.resultState = o.transition.val.resultState

/-- The job of the outcome of an execution. -/
theorem outcomeJob_of_checkOutcomeJob {o : JobOutcome} (h : db.checkOutcomeJob o = .ok ()) :
  ∃ row, OutcomeJob db o row
  := by
  simp only [checkOutcomeJob, Except.bind_eq_ok_iff] at h
  obtain ⟨found, hfound, h⟩ := h
  split at h
  · cases h
  · next job =>
      obtain ⟨hmem, hid⟩ := of_getJob hfound
      simp only [Except.unit_bind_eq_ok_iff, rejectIf_eq_ok_iff, not_or, not_not, ne_eq] at h
      obtain ⟨⟨hrevision, hsnapshot⟩, ⟨hjob, hnext⟩, hprior, hresult, -⟩ := h
      exact ⟨job.val, hmem, hid, hrevision, hsnapshot, hjob, hnext, hprior, hresult⟩

/-- The job of the outcome of a reconciliation. -/
theorem outcomeJob_of_checkRestartJob {o : JobOutcome} (h : db.checkRestartJob o = .ok ()) :
  ∃ row, OutcomeJob db o row
  := by
  simp only [checkRestartJob, Except.bind_eq_ok_iff] at h
  obtain ⟨found, hfound, h⟩ := h
  split at h
  · cases h
  · next job =>
      obtain ⟨hmem, hid⟩ := of_getJob hfound
      simp only [rejectIf_eq_ok_iff, not_or, not_not, ne_eq] at h
      obtain ⟨hrevision, hsnapshot, hjob, hnext, hprior, hresult, -⟩ := h
      exact ⟨job.val, hmem, hid, hrevision, hsnapshot, hjob, hnext, hprior, hresult⟩

/-- The writes that end an execution: the next revision of the execution with the outcome,
the outcome on the job, and the events of both. -/
theorem ended_of_writes {prior : ExecutionRow} {p : MachineExecution} {o : JobOutcome}
    {row : JobRecord.Fields} {db₁ db₂ db₃ db₄ : Database}
    (hprior : prior ∈ db.executions) (hp : db.getExecution e.val.executionId = some p)
    (hprogresses : Progresses p e) (hvalid : validateOutcome e o = .ok ())
    (hjob : OutcomeJob db o row)
    (hmatch : assertAuditMatchesEvent o.event o.audit = .ok ())
    (hquiet : Quiet db db₁) (hexecutions : db₁.executions = db.executions)
    (hrevised : Revised db₁ prior e (some o.outcome) db₂)
    (hjobs : db₂.updateJob o.transition o.outcome.val.occurredAt = .ok db₃)
    (hevent : db₃.insertEvent e event audit = .ok db₄)
    (hjobEvent : db₄.insertJobEvent o.event o.audit = .ok db') :
  Ended db prior e o row db'
  := by
  have hid := jobId_of_validateOutcome hvalid
  simp only [validateOutcome, rejectIf_eq_ok_iff, not_or, not_not, ne_eq] at hvalid
  obtain ⟨hexecutionId, -, hrevision, -, hstate, hphase⟩ := hvalid
  obtain ⟨row', hrow', hrowId, -, -, hupdated⟩ := frame_of_updateJob hjobs
  obtain ⟨-, -, hrecorded⟩ := recorded_of_insertEvent hevent
  have hquiet₂ : Quiet db db₂ := by
    apply hquiet.trans
    apply quiet_of_frame <;> rw [hrevised.frame]
  have hquiet₄ := quiet_of_insertEvent hevent
  have hrecorded' := recorded_of_insertJobEvent hjobEvent
  have hlogged := logged_of_insertJobEvent hjobEvent hmatch
  obtain rfl : row' = row := by
    rw [hquiet₂.jobs] at hrow'
    apply Table.eq_of_key_eq hrow' hjob.mem
    exact hrowId.trans hjob.jobId.symm
  have hpriorp : prior.execution = p := by
    obtain ⟨found, hfound, rfl, hkey⟩ := getExecution_eq_some_iff.mp hp
    rw [Table.eq_of_key_eq hprior hfound (hrevised.executionId.trans hkey.symm)]
  constructor
  · apply hprior
  · rw [hpriorp]
    apply hprogresses
  · apply hexecutionId
  · intro hne
    have hsame := outcome_of_checkUpdate hrevised.checked hne
    exact hsame.symm
  · apply hrevision
  · apply hphase
  · rw [hrecorded', hrecorded, hupdated, hrevised.table, hexecutions]
    rfl
  · apply hjob.jobId.trans hid
  · apply hstate.symm
  · constructor
    · apply hjob.mem
    · rfl
    · rfl
    · rw [hjob.revision]
      rfl
    · intro _
      exact hjob.snapshot.symm
    · rw [hrecorded', hrecorded, hupdated, ← hquiet₂.jobs]
    · apply hjob.eventJob
    · apply hjob.eventRevision
    · apply hjob.eventPrior
    · apply hjob.eventResult
    · constructor
      · have hsame : db₄.jobEvents = db.jobEvents := by
          rw [hquiet₄.jobEvents, ← hquiet₂.jobEvents, hupdated]
        rw [← hsame]
        apply hlogged.jobEvents
      · intro a ha
        apply hlogged.audits
        apply hquiet₄.audits
        rw [hupdated]
        exact hquiet₂.audits a ha
      · apply hlogged.audited

/-- The end of an execution that is committed with its outcome. -/
theorem ended_of_commitMachineOutcome {o : JobOutcome} {session : Option MachineSessionSnapshot}
    (h : db.commitMachineOutcome n e o event audit session = .ok db') :
  ∃ prior row, Ended db prior e o row db'
  := by
  simp only [commitMachineOutcome, Except.bind_eq_ok_iff, Except.exists_unit_iff] at h
  obtain ⟨p, hp, hprogresses, hvalid, hjob, hmatch, db₁, hsession, db₂, hupdate, db₃, hjobs, db₄,
    hevent, hjobEvent⟩ := h
  obtain ⟨hget, -⟩ := requirePrior_eq_ok hp
  have hframe : db₁ = { db with sessions := db₁.sessions } := by
    unfold insertOutcomeSession at hsession
    split at hsession
    · cases hsession
      rfl
    · simp only [Except.bind_eq_ok_iff, Except.exists_unit_iff] at hsession
      apply (frame_of_insertSession hsession.2).1
  have hquiet : Quiet db db₁ := by
    apply quiet_of_frame <;> rw [hframe]
  have hexecutions : db₁.executions = db.executions := by rw [hframe]
  obtain ⟨prior, -, hrevised⟩ := revised_of_updateExecution hupdate
  obtain ⟨row, hrow⟩ := outcomeJob_of_checkOutcomeJob hjob
  have hprior : prior ∈ db.executions := by
    rw [← hexecutions]
    apply hrevised.mem
  use prior, row
  apply ended_of_writes hprior hget hprogresses hvalid hrow hmatch hquiet hexecutions hrevised
    hjobs hevent hjobEvent

/-- The end of an execution that is reconciled with its outcome. -/
theorem ended_of_reconcileRestart {o : JobOutcome}
    (h : db.reconcileRestart n e event audit (some o) = .ok db') :
  ∃ prior row, Ended db prior e o row db'
  := by
  simp only [reconcileRestart, Except.bind_eq_ok_iff, Except.exists_unit_iff,
    rejectIf_eq_ok_iff, checkSome_eq_ok_iff] at h
  obtain ⟨p, hp, hprogresses, -, hrepeated, houtcome, db₂, hupdate, db₃, hjobs, db₄, hevent,
    hjobEvent⟩ := h
  obtain ⟨hget, -⟩ := requirePrior_eq_ok hp
  obtain ⟨hvalid, hjob, hmatch⟩ := houtcome o rfl
  have hphase : p.val.phase ≠ .recoveryRequired := by
    intro hphase
    apply hrepeated ⟨hphase, rfl⟩
  rw [checkReconciled, if_neg hphase] at hprogresses
  rw [updateReconciled, if_neg hphase] at hupdate
  obtain ⟨prior, -, hrevised⟩ := revised_of_updateExecution hupdate
  obtain ⟨row, hrow⟩ := outcomeJob_of_checkRestartJob hjob
  have hprior : prior ∈ db.executions := hrevised.mem
  have hquiet : Quiet db ((db.expireChallenges e.val.executionId event.val.occurredAt
      ).invalidateAdmissions e.val.executionId event.val.occurredAt) := by
    apply quiet_of_frame <;> rfl
  use prior, row
  apply ended_of_writes hprior hget hprogresses hvalid hrow hmatch hquiet rfl hrevised hjobs
    hevent hjobEvent

/-- A call with an outcome ends an execution. -/
theorem ended_of_call {c : Call} {o : JobOutcome} (h : c.apply db = .ok db')
    (hc : c.outcome = some o) :
  ∃ prior e row, Ended db prior e o row db'
  := by
  cases c with
  | commitMachineOutcome n e o' event audit session =>
      cases hc
      obtain ⟨prior, row, hended⟩ := ended_of_commitMachineOutcome h
      use prior, e, row
  | reconcileRestart n e event audit outcome =>
      cases hc
      obtain ⟨prior, row, hended⟩ := ended_of_reconcileRestart h
      use prior, e, row
  | _ => cases hc

/-! ### The repository of the jobs -/

/-- A job was changed by the repository of the jobs. It is not cancelled while an execution
draws it. -/
structure Advanced (db : Database) (row row' : JobRecord.Fields) (event : JobEvent)
    (db' : Database) : Prop where
  changed : Changed db row row' event db'
  cancelled : row'.state = .cancelled → ∀ e ∈ db.executions,
    e.execution.val.jobId = row.jobId → ¬ e.Active
  executions : db'.executions = db.executions

/-- A job was stored. -/
structure Stored (db : Database) (row : JobRecord.Fields) (event : JobEvent) (db' : Database) :
    Prop where
  jobs : db.jobs.insert? row = some db'.jobs
  state : row.state = .queued
  revision : row.revision = 0
  eventJob : event.val.jobId = row.jobId
  eventRevision : event.val.jobRevision = 0
  eventPrior : event.val.priorState = none
  eventResult : event.val.resultState = .queued
  logged : Logged db event db'
  executions : db'.executions = db.executions

end Database

namespace SharedDatabase

open Database

variable {db db' : SharedDatabase}

/-- Artifacts are written to their own table. -/
theorem tables_of_insertArtifacts {jobId : String} {n : Nat} {artifacts : List ArtifactRef}
    (h : db.insertArtifacts jobId n artifacts = .ok db') :
  db'.tables = db.tables
  := by
  simp only [insertArtifacts, Except.bind_eq_ok_iff, Except.pure_eq_ok_iff] at h
  obtain ⟨t, -, rfl⟩ := h
  rfl

/-- The recording of the event of a job. -/
theorem logged_of_recordEvent {event : JobEvent} {audit : AuditRecord} {recordedAt : Timestamp}
    (h : db.recordEvent event audit recordedAt = .ok db')
    (hmatch : assertAuditMatchesEvent event audit = .ok ()) :
  Logged db.tables event db'.tables ∧ db'.tables.jobs = db.tables.jobs ∧
    db'.tables.executions = db.tables.executions
  := by
  simp only [recordEvent, Except.bind_eq_ok_iff, insertUnique_eq_ok_iff,
    Except.pure_eq_ok_iff] at h
  obtain ⟨jobEvents, hevents, auditEvents, haudit, rfl⟩ := h
  simp only [assertAuditMatchesEvent, Except.unit_bind_eq_ok_iff, rejectIf_eq_ok_iff, not_or,
    not_not, ne_eq] at hmatch
  obtain ⟨-, ⟨hid, htype, hrequest⟩, -⟩ := hmatch
  refine ⟨?_, rfl, rfl⟩
  constructor
  · apply hevents
  · intro a ha
    apply (Table.mem_of_insert? haudit).mpr
    left
    apply ha
  · refine ⟨_, (Table.mem_of_insert? haudit).mpr (.inr rfl), hid, htype, hrequest⟩

/-- A change of a job finds the job at the revision the caller expects. -/
theorem of_requireJob {t : JobTransition} {current : JobRecord}
    (h : db.requireJob t = .ok current) :
  current.val ∈ db.tables.jobs ∧ current.val.jobId = t.val.jobId ∧
    current.val.revision = t.val.expectedRevision
  := by
  unfold requireJob at h
  split at h
  · cases h
  · next row hrow =>
      simp only [Except.bind_eq_ok_iff, Except.exists_unit_iff, reported_eq_ok_iff,
        rejectIf_eq_ok_iff, Except.pure_eq_ok_iff, not_not, ne_eq] at h
      obtain ⟨found, hfound, hrevision, rfl⟩ := h
      obtain rfl : found.val = row := acceptIf_eq_ok_iff.mp hfound
      obtain ⟨hmem, hid⟩ := Table.get?_eq_some_iff.mp hrow
      use hmem, hid

/-- What changing a job does. -/
theorem advanced_of_transitionJob {t : JobTransition} {artifacts : List ArtifactRef}
    {event : JobEvent} {audit : AuditRecord} {updatedAt recordedAt : Timestamp}
    {job' : JobRecord}
    (h : db.transitionJob t artifacts event audit updatedAt recordedAt = .ok (job', db')) :
  ∃ row, row.jobId = t.val.jobId ∧ row.revision = t.val.expectedRevision ∧
    job'.val.state = t.val.resultState ∧ Advanced db.tables row job'.val event db'.tables
  := by
  simp only [transitionJob, Except.bind_eq_ok_iff, Except.exists_unit_iff, reported_eq_ok_iff,
    Except.pure_eq_ok_iff, Prod.mk.injEq] at h
  obtain ⟨current, hcurrent, hevent, hmatch, -, updated, hupdated, db₁, hupdate, db₂, hartifacts,
    db₃, hrecord, rfl, rfl⟩ := h
  obtain ⟨hmem, hid, hrevision⟩ := of_requireJob hcurrent
  have hfields : updated.val = transitionedFields t current.val updatedAt :=
    acceptIf_eq_ok_iff.mp hupdated
  simp only [updateJob, Except.unit_bind_eq_ok_iff, rejectIf_eq_ok_iff,
    Except.pure_eq_ok_iff] at hupdate
  obtain ⟨hactive, hsnapshot, rfl⟩ := hupdate
  simp only [checkTransitionEvent, rejectIf_eq_ok_iff, not_or, not_not, ne_eq] at hevent
  obtain ⟨hjob, hnext, hprior, hresult, -⟩ := hevent
  have htables := tables_of_insertArtifacts hartifacts
  obtain ⟨hlogged, hjobs, hexecutions⟩ := logged_of_recordEvent hrecord hmatch
  rw [htables] at hlogged hjobs hexecutions
  have hstate : updated.val.state = t.val.resultState := by rw [hfields]; rfl
  refine ⟨current.val, hid, hrevision, hstate, ?_⟩
  constructor
  · constructor
    · apply hmem
    · rw [hfields]
      rfl
    · rw [hfields]
      rfl
    · rw [hfields, hrevision]
      rfl
    · intro hsome
      by_contra hne
      apply hsnapshot ⟨hsome, hne⟩
    · rw [hjobs]
    · apply hjob.trans hid.symm
    · rw [hnext, hrevision]
    · apply hprior
    · rw [hresult, hstate]
    · constructor
      · apply hlogged.jobEvents
      · apply hlogged.audits
      · apply hlogged.audited
  · intro hcancelled e he hejob heactive
    apply hactive ⟨hcancelled, e, he, hejob, heactive⟩
  · apply hexecutions

end SharedDatabase

namespace OfflineJobChain

open Database SharedDatabase

variable {db db' : SharedDatabase} {job job' : JobRecord} {state : JobState} {c : Change}
  {commit : Commit}

/-- What a change of a job does: the job is stored at the revision of the copy, and the
change is one that the domain allows the copy. -/
theorem advanced_of_transition (h : transition db job state c commit = .ok (job', db')) :
  allowedTransition job.val.state state (blockerCode job.val) job.val.kind = true ∧
    ∃ row event, row.jobId = job.val.jobId ∧ row.revision = job.val.revision ∧
      job'.val.state = state ∧ Advanced db.tables row job'.val event db'.tables
  := by
  simp only [transition, Except.bind_eq_ok_iff, Except.exists_unit_iff, reported_eq_ok_iff,
    rejectIf_eq_ok_iff, Except.pure_eq_ok_iff, Bool.not_eq_false] at h
  obtain ⟨hallowed, t, ht, pair, -, updated, hupdated, -, rfl⟩ := h
  have hfields := acceptIf_eq_ok_iff.mp ht
  obtain ⟨row, hid, hrevision, hstate, hadvanced⟩ := advanced_of_transitionJob hupdated
  rw [hfields] at hid hrevision hstate
  refine ⟨hallowed, row, pair.1, hid, hrevision, hstate, hadvanced⟩

/-- What a request for a job does. -/
theorem stored_of_submit {jobId : String} {kind : JobKind} {name request : String}
    {config : ConfigSnapshot} {now : Timestamp}
    (h : submit db jobId kind name request config now c commit = .ok (job', db')) :
  ∃ event, Stored db.tables job'.val event db'.tables
  := by
  simp only [submit, createJob, Except.bind_eq_ok_iff, Except.exists_unit_iff,
    reported_eq_ok_iff, rejectIf_eq_ok_iff, insertUnique_eq_ok_iff, Except.pure_eq_ok_iff, not_or,
    not_not, ne_eq, Prod.mk.injEq] at h
  obtain ⟨job, hjob, pair, -, db₁, ⟨⟨heventJob, hrevision, hprior, hresult⟩, hmatch, -, jobs,
    hjobs, db₂, hartifacts, hrecord⟩, -, rfl, rfl⟩ := h
  have hfields := acceptIf_eq_ok_iff.mp hjob
  have htables := tables_of_insertArtifacts hartifacts
  obtain ⟨hlogged, hjobs', hexecutions⟩ := logged_of_recordEvent hrecord hmatch
  rw [htables] at hlogged hjobs' hexecutions
  use pair.1
  constructor
  · rw [hjobs']
    apply hjobs
  · rw [hfields]
    rfl
  · rw [hfields]
    rfl
  · apply heventJob
  · rw [hrevision, hfields]
    rfl
  · apply hprior
  · rw [hresult, hfields]
    rfl
  · constructor
    · apply hlogged.jobEvents
    · apply hlogged.audits
    · apply hlogged.audited
  · apply hexecutions

end OfflineJobChain

end DrawingMachine
