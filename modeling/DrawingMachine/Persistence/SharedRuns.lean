import DrawingMachine.Persistence.JobEffects

/-!
# Runs of both repositories

The coordinator of the machine and the chain of offline steps share the database. The calls
of the coordinator are the ones its commands and drivers make; the chain decides on copies
of the jobs that it read or wrote before, in any order and however old they are. `Effect`
says what a call of the coordinator can do to jobs and executions.
-/

namespace DrawingMachine

/-! ### The calls of the coordinator -/

/-- The phases into which a motion brings an execution, and those in which it waits for
the next approval after a motion. -/
def motionPhases : List MachinePhase :=
  [ .homing, .zCalibrating, .zConfirming, .streaming, .homingZ, .awaitingZcalApproval,
    .awaitingZconfirmApproval, .awaitingStreamApproval ]

/-- The next revision of an execution that the coordinator records without an outcome. -/
inductive NextRevision (current : MachineExecution.Fields) : MachineExecution.Fields → Prop
  /-- A motion is admitted, or was confirmed. -/
  | motion (phase : MachinePhase) (h : phase ∈ motionPhases) (now : Timestamp) :
      NextRevision current
        { current with revision := current.revision + 1, phase := phase, updatedAt := now }
  /-- The stream is about to write. -/
  | writePossible (h : current.phase = .streaming) (now : Timestamp) :
      NextRevision current
        { current with
          revision := current.revision + 1
          streamMilestone := .firstWritePossible
          updatedAt := now }
  /-- The stream was confirmed, and the raised pen waits for its approval. -/
  | streamConfirmed (now : Timestamp) :
      NextRevision current
        { current with
          revision := current.revision + 1
          phase := .awaitingHomeZApproval
          streamMilestone := .streamConfirmed
          retirement := none
          updatedAt := now }

/-- Without an outcome, an execution neither ends nor needs recovery. -/
theorem NextRevision.phase_ne {current e : MachineExecution.Fields} (h : NextRevision current e) :
  e.phase ≠ .recoveryRequired ∧ e.phase ≠ .completed
  := by
  cases h with
  | motion phase h now =>
      constructor <;>
      · rintro rfl
        simp [motionPhases] at h
  | writePossible h now => simp [h]
  | streamConfirmed now => simp

/-- The calls that the coordinator makes. -/
inductive Call.Coordinated : Call → Prop
  | createExecution (e : MachineExecution) (event : MachineEvent) (audit : MachineAuditPayload) :
      Coordinated (.createExecution e event audit)
  | recordOpenedSession (n : Nat) (e : MachineExecution) (session : MachineSessionSnapshot)
      (event : MachineEvent) (audit : MachineAuditPayload) :
      Coordinated (.recordOpenedSession n e session event audit)
  | transitionExecution (current e : MachineExecution) (h : NextRevision current.val e.val)
      (event : MachineEvent) (audit : MachineAuditPayload) :
      Coordinated (.transitionExecution current.val.revision e event audit)
  | commitMachineOutcome (n : Nat) (e : MachineExecution) (o : Database.JobOutcome)
      (event : MachineEvent) (audit : MachineAuditPayload)
      (session : Option MachineSessionSnapshot) :
      Coordinated (.commitMachineOutcome n e o event audit session)
  /-- The reconciliation of an execution that waits for recovery already. -/
  | repeated (current : MachineExecution) (event : MachineEvent) (audit : MachineAuditPayload) :
      Coordinated (.reconcileRestart current.val.revision current event audit none)
  /-- The reconciliation of a successor, whose job needs recovery already. -/
  | successor (n : Nat) (e : MachineExecution) (h : e.val.predecessorExecutionId ≠ none)
      (event : MachineEvent) (audit : MachineAuditPayload) :
      Coordinated (.reconcileRestart n e event audit none)
  | reconcileRestart (n : Nat) (e : MachineExecution) (event : MachineEvent)
      (audit : MachineAuditPayload) (o : Database.JobOutcome) :
      Coordinated (.reconcileRestart n e event audit (some o))
  | releaseOwner (n : Nat) (e : MachineExecution) (event : MachineEvent)
      (audit : MachineAuditPayload) : Coordinated (.releaseOwner n e event audit)
  | transferOwner (n : Nat) (predecessor successor : MachineExecution)
      (predecessorEvent successorEvent : MachineEvent)
      (predecessorAudit successorAudit : MachineAuditPayload) :
      Coordinated (.transferOwner n predecessor successor predecessorEvent successorEvent
        predecessorAudit successorAudit)
  | issueChallenge (c : MachineApprovalChallenge) (replacement : Option MachineApprovalDecision)
      (recorded : Option (MachineEvent × MachineAuditPayload)) :
      Coordinated (.issueChallenge c replacement recorded)
  | decideChallenge (d : MachineApprovalDecision) : Coordinated (.decideChallenge d)
  | reserveRequest (r : MachineRequestRecord) : Coordinated (.reserveRequest r)
  | completeRequest (key : MachineRequestKey) (response : MachineResponse)
      (completedAt : Timestamp) : Coordinated (.completeRequest key response completedAt)
  | claimRequest (c : MachineAdmissionCapability) (claimedAt : Timestamp) :
      Coordinated (.claimRequest c claimedAt)
  | appendProgress (progressId : String) (p : MachineProgress) :
      Coordinated (.appendProgress progressId p)
  | recordLifecycleEvent (e : MachineExecution) (event : MachineEvent)
      (audit : MachineAuditPayload) : Coordinated (.recordLifecycleEvent e event audit)

namespace Database

variable {db db' : Database} {e : MachineExecution} {n : Nat} {event : MachineEvent}
  {audit : MachineAuditPayload}

/-! ### What a call does to jobs and executions -/

/-- An execution was revised, and the outcome on its row was left. -/
structure Kept (db : Database) (prior : ExecutionRow) (e : MachineExecution) (db' : Database) :
    Prop where
  mem : prior ∈ db.executions
  progresses : Progresses prior.execution e
  executions : db'.executions = db.executions.set ⟨e, prior.outcome⟩

/-- An update without an outcome, by the next revision of the row it replaces. -/
theorem kept_of_revised {prior : ExecutionRow} {p : MachineExecution} {db₁ db₂ : Database}
    (hexecutions : db₁.executions = db.executions)
    (hget : db.getExecution e.val.executionId = some p) (hprogresses : Progresses p e)
    (hrevised : Revised db₁ prior e none db₂) (hafter : db'.executions = db₂.executions) :
  prior.execution = p ∧ Kept db prior e db'
  := by
  have hprior : prior ∈ db.executions := by
    rw [← hexecutions]
    apply hrevised.mem
  have hpriorp : prior.execution = p := by
    obtain ⟨row, hrow, rfl, hid⟩ := getExecution_eq_some_iff.mp hget
    rw [Table.eq_of_key_eq hprior hrow (hrevised.executionId.trans hid.symm)]
  use hpriorp
  constructor
  · apply hprior
  · rw [hpriorp]
    apply hprogresses
  · rw [hafter, hrevised.table, hexecutions]
    rfl

/-- An execution that is revised by a transition keeps its outcome. -/
theorem kept_of_transitionExecution (h : db.transitionExecution n e event audit = .ok db') :
  ∃ prior, Kept db prior e db'
  := by
  simp only [transitionExecution, Except.bind_eq_ok_iff, Except.exists_unit_iff] at h
  obtain ⟨p, hp, hprogresses, db₁, hupdate, hevent⟩ := h
  obtain ⟨prior, -, hrevised⟩ := revised_of_updateExecution hupdate
  obtain ⟨-, -, hrecorded⟩ := recorded_of_insertEvent hevent
  use prior
  apply (kept_of_revised rfl (requirePrior_eq_ok hp).1 hprogresses hrevised _).2
  rw [hrecorded]

/-- An execution whose session is recorded keeps its outcome. -/
theorem kept_of_recordOpenedSession {session : MachineSessionSnapshot}
    (h : db.recordOpenedSession n e session event audit = .ok db') :
  ∃ prior, e.val.phase = .awaitingHomeApproval ∧ Kept db prior e db'
  := by
  simp only [recordOpenedSession, Except.bind_eq_ok_iff, Except.exists_unit_iff,
    rejectIf_eq_ok_iff, not_or, not_not, ne_eq] at h
  obtain ⟨p, hp, ⟨-, hphase, -⟩, hprogresses, db₁, hsession, db₂, hupdate, hevent⟩ := h
  obtain ⟨hframe, -⟩ := frame_of_insertSession hsession
  obtain ⟨prior, -, hrevised⟩ := revised_of_updateExecution hupdate
  obtain ⟨-, -, hrecorded⟩ := recorded_of_insertEvent hevent
  have hexecutions : db₁.executions = db.executions := by rw [hframe]
  refine ⟨prior, hphase, ?_⟩
  apply (kept_of_revised hexecutions (requirePrior_eq_ok hp).1 hprogresses hrevised _).2
  rw [hrecorded]

/-- An execution that is reconciled without an outcome is left as it is, when the
reconciliation repeats one, or keeps its outcome. -/
theorem kept_of_reconcileRestart (h : db.reconcileRestart n e event audit none = .ok db') :
  db'.executions = db.executions ∨
    ∃ prior, prior.execution.val.revision = n ∧ Kept db prior e db'
  := by
  simp only [reconcileRestart, Except.bind_eq_ok_iff, Except.exists_unit_iff] at h
  obtain ⟨p, hp, hprogresses, -, -, -, db₁, hupdate, db₂, hjobs, db₃, hevent, hjobEvent⟩ := h
  obtain ⟨hget, hrevision⟩ := requirePrior_eq_ok hp
  cases hjobs
  cases hjobEvent
  obtain ⟨-, -, hrecorded⟩ := recorded_of_insertEvent hevent
  by_cases hphase : p.val.phase = .recoveryRequired
  · left
    rw [updateReconciled, if_pos hphase, Except.ok.injEq] at hupdate
    rw [hrecorded, ← hupdate]
    rfl
  · right
    rw [updateReconciled, if_neg hphase] at hupdate
    rw [checkReconciled, if_neg hphase] at hprogresses
    obtain ⟨prior, -, hrevised⟩ := revised_of_updateExecution hupdate
    have hafter : db'.executions = db₁.executions := by rw [hrecorded]
    have hexecutions : ((db.expireChallenges e.val.executionId event.val.occurredAt
        ).invalidateAdmissions e.val.executionId event.val.occurredAt).executions =
        db.executions := rfl
    obtain ⟨hprior, hkept⟩ := kept_of_revised hexecutions hget hprogresses hrevised hafter
    use prior
    rw [hprior]
    refine ⟨hrevision, hkept⟩

/-- What one write of a call of the coordinator, with an outcome or without, does to jobs
and executions. -/
inductive Effect (outcome : Option JobOutcome) (db db' : Database) : Prop
  /-- Nothing. -/
  | quiet (quiet : Quiet db db') (executions : db'.executions = db.executions)
  /-- A fresh execution is recorded while nobody owns the machine. -/
  | inserted (e : MachineExecution) (quiet : Quiet db db')
      (phase : e.val.phase = .preparingSession)
      (authority : db.checkInsertAuthority e.val = .ok ())
      (owner : ∀ row ∈ db.executions, ¬ row.Active)
      (table : db.executions.insert? ⟨e, none⟩ = some db'.executions)
  /-- An execution is revised. It does not complete, and while it owns the machine it needs
  recovery only when it is a successor. -/
  | kept (prior : ExecutionRow) (e : MachineExecution) (quiet : Quiet db db')
      (kept : Kept db prior e db') (completed : e.val.phase ≠ .completed)
      (recovery : e.val.retirement = none → e.val.phase = .recoveryRequired →
        e.val.predecessorExecutionId ≠ none)
  /-- An execution ends, and leaves its outcome on its job. -/
  | ended (prior : ExecutionRow) (e : MachineExecution) (o : JobOutcome) (row : JobRecord.Fields)
      (outcome_eq : outcome = some o) (ended : Ended db prior e o row db')

/-- The effect of a revision that neither ends an execution nor makes it need recovery. -/
theorem effect_of_phase_ne {outcome : Option JobOutcome} {prior : ExecutionRow} (hquiet : Quiet db db')
    (hkept : Kept db prior e db') (hrecovery : e.val.phase ≠ .recoveryRequired)
    (hcompleted : e.val.phase ≠ .completed) :
  Effect outcome db db'
  := by
  apply Effect.kept prior e hquiet hkept hcompleted
  intro _ h
  apply absurd h hrecovery

/-- The effect of the retirement of an execution that was not completed. -/
theorem effect_of_retired {outcome : Option JobOutcome} {prior : ExecutionRow}
    {d : RetirementDisposition}
    (hquiet : Quiet db db') (hkept : Kept db prior e db')
    (h : e.val.retirementDisposition = some d) (hd : d ≠ .completed) :
  Effect outcome db db'
  := by
  obtain ⟨r, hr, hdisposition⟩ := MachineExecution.Fields.retirementDisposition_eq_some_iff.mp h
  apply Effect.kept prior e hquiet hkept
  · rw [MachineExecution.phase_of_recovery_retirement hr (by rw [hdisposition]; apply hd)]
    decide
  · intro hnone
    rw [hr] at hnone
    cases hnone

/-- The effect of a new execution. -/
theorem effect_of_inserted {outcome : Option JobOutcome} (hquiet : Quiet db db') (h : Inserted db e db')
    (hphase : e.val.phase = .preparingSession) :
  Effect outcome db db'
  := by
  have hactive : (ExecutionRow.mk e none).Active := by
    apply active_of_retirement
    apply MachineExecution.retirement_eq_none
    · rw [hphase]
      decide
    · rw [hphase]
      decide
  apply Effect.inserted e hquiet hphase h.authority (h.owner hactive) h.table

/-- The effects of a transfer: the predecessor retires, and its successor is recorded. -/
theorem effects_of_transferOwner {outcome : Option JobOutcome} {successor : MachineExecution}
    {successorEvent : MachineEvent} {successorAudit : MachineAuditPayload}
    (h : db.transferOwner n e successor event successorEvent audit successorAudit = .ok db') :
  Relation.ReflTransGen (Effect outcome) db db'
  := by
  simp only [transferOwner, Except.bind_eq_ok_iff, Except.exists_unit_iff, rejectIf_eq_ok_iff,
    not_or, not_not, ne_eq] at h
  obtain ⟨p, hp, hprogresses, ⟨hretirement, -⟩, ⟨-, -, -, hphase, -⟩, db₁, hupdate, db₂,
    hinsert, db₃, hevent, hevent'⟩ := h
  obtain ⟨prior, -, hrevised⟩ := revised_of_updateExecution hupdate
  have hkept := (kept_of_revised rfl (requirePrior_eq_ok hp).1 hprogresses hrevised rfl).2
  have hinserted := inserted_of_insertExecution hinsert
  have hdisposition : e.val.retirementDisposition = some .transferred := by
    obtain ⟨r, hr, hr'⟩ := (Option.any_eq_true _ _).mp hretirement
    apply MachineExecution.Fields.retirementDisposition_eq_some_iff.mpr
    use r, hr
    exact (of_decide_eq_true hr').1
  obtain ⟨-, -, hrecorded⟩ := recorded_of_insertEvent hevent
  obtain ⟨-, -, hrecorded'⟩ := recorded_of_insertEvent hevent'
  have hquiet : Quiet db₂ db' := (quiet_of_insertEvent hevent).trans (quiet_of_insertEvent hevent')
  have hexecutions : db'.executions = db₂.executions := by rw [hrecorded', hrecorded]
  apply Relation.ReflTransGen.head
    (effect_of_retired (quiet_of_updateExecution hupdate) hkept hdisposition (by decide))
  apply Relation.ReflTransGen.head
    (effect_of_inserted (quiet_of_insertExecution hinsert) hinserted hphase)
  apply Relation.ReflTransGen.single (Effect.quiet hquiet hexecutions)

/-- The effects of a call of the coordinator. -/
theorem effects_of_call {c : Call} (h : c.apply db = .ok db') (hc : c.Coordinated) :
  Relation.ReflTransGen (Effect c.outcome) db db'
  := by
  cases hc with
  | createExecution e event audit =>
      simp only [Call.apply, createExecution, Except.bind_eq_ok_iff, Except.exists_unit_iff,
        rejectIf_eq_ok_iff, not_or, not_not, ne_eq] at h
      obtain ⟨⟨-, hphase, -⟩, db₁, hinsert, hevent⟩ := h
      obtain ⟨-, -, hrecorded⟩ := recorded_of_insertEvent hevent
      have hexecutions : db'.executions = db₁.executions := by rw [hrecorded]
      apply Relation.ReflTransGen.head (effect_of_inserted (quiet_of_insertExecution hinsert)
        (inserted_of_insertExecution hinsert) hphase)
      apply Relation.ReflTransGen.single
        (Effect.quiet (quiet_of_insertEvent hevent) hexecutions)
  | recordOpenedSession n e session event audit =>
      obtain ⟨prior, hphase, hkept⟩ := kept_of_recordOpenedSession h
      apply Relation.ReflTransGen.single
      apply effect_of_phase_ne (quiet_of_call h rfl) hkept <;> rw [hphase] <;> decide
  | transitionExecution current e hnext event audit =>
      obtain ⟨prior, hkept⟩ := kept_of_transitionExecution h
      apply Relation.ReflTransGen.single
      apply effect_of_phase_ne (quiet_of_call h rfl) hkept hnext.phase_ne.1 hnext.phase_ne.2
  | commitMachineOutcome n e o event audit session =>
      obtain ⟨prior, row, hended⟩ := ended_of_commitMachineOutcome h
      apply Relation.ReflTransGen.single (Effect.ended prior e o row rfl hended)
  | repeated current event audit =>
      apply Relation.ReflTransGen.single
      apply Effect.quiet (quiet_of_call h rfl)
      obtain hsame | ⟨prior, hrevision, hkept⟩ := kept_of_reconcileRestart h
      · apply hsame
      · -- The execution is at the revision that it is reconciled at.
        have hnext := hkept.progresses.revision
        omega
  | successor n e hpredecessor event audit =>
      apply Relation.ReflTransGen.single
      have hphase := (of_reconcileRestart h).1
      obtain hsame | ⟨prior, -, hkept⟩ := kept_of_reconcileRestart h
      · apply Effect.quiet (quiet_of_call h rfl) hsame
      · apply Effect.kept prior e (quiet_of_call h rfl) hkept
        · rw [hphase]
          decide
        · intro _ _
          apply hpredecessor
  | reconcileRestart n e event audit o =>
      obtain ⟨prior, row, hended⟩ := ended_of_reconcileRestart h
      apply Relation.ReflTransGen.single (Effect.ended prior e o row rfl hended)
  | releaseOwner n e event audit =>
      have hquiet := quiet_of_call h rfl
      simp only [Call.apply, releaseOwner, Except.unit_bind_eq_ok_iff, rejectIf_eq_ok_iff,
        not_not, ne_eq] at h
      obtain ⟨prior, hkept⟩ := kept_of_transitionExecution h.2
      apply Relation.ReflTransGen.single
      apply effect_of_retired hquiet hkept h.1 (by decide)
  | transferOwner n p s pe se pa sa => apply effects_of_transferOwner h
  | _ =>
      apply Relation.ReflTransGen.single
      apply Effect.quiet (quiet_of_call h rfl)
      apply executions_of_call h id

/-! ### What both repositories write -/

open OfflineJobChain (blockerCode)

/-- What one write of either repository does to jobs and executions. -/
inductive Write (db db' : Database) : Prop
  | machine (outcome : Option JobOutcome) (effect : Effect outcome db db')
  /-- A job is changed as the domain allows. -/
  | advanced (row row' : JobRecord.Fields) (event : JobEvent)
      (allowed : allowedTransition row.state row'.state (blockerCode row) row.kind = true)
      (advanced : Advanced db row row' event db')
  | stored (row : JobRecord.Fields) (event : JobEvent) (stored : Stored db row event db')

/-- Every job stays as it is or gets a later revision, and keeps the snapshot it has. -/
def Grows (db db' : Database) : Prop :=
  ∀ row ∈ db.jobs, ∃ row' ∈ db'.jobs, row'.jobId = row.jobId ∧
    (row' = row ∨ row.revision < row'.revision) ∧
    (row.readySnapshot ≠ none → row'.readySnapshot = row.readySnapshot)

/-- Nothing is written. -/
theorem Grows.refl (db : Database) : Grows db db := by
  intro row hrow
  refine ⟨row, hrow, rfl, .inl rfl, fun _ => rfl⟩

/-- Two writes after each other. -/
theorem Grows.trans {db₁ : Database} (h : Grows db db₁) (h' : Grows db₁ db') : Grows db db' := by
  intro row hrow
  obtain ⟨row₁, hrow₁, hid₁, hrevision₁, hsnapshot₁⟩ := h row hrow
  obtain ⟨row₂, hrow₂, hid₂, hrevision₂, hsnapshot₂⟩ := h' row₁ hrow₁
  refine ⟨row₂, hrow₂, hid₂.trans hid₁, ?_, ?_⟩
  · rcases hrevision₁ with rfl | hlt
    · apply hrevision₂
    · right
      rcases hrevision₂ with rfl | hlt₂
      · apply hlt
      · omega
  · intro hne
    have hsame := hsnapshot₁ hne
    rw [hsnapshot₂ (by rw [hsame]; apply hne), hsame]

/-- A change of a job. -/
theorem grows_of_changed {row row' : JobRecord.Fields} {event : JobEvent}
    (h : Changed db row row' event db') :
  Grows db db'
  := by
  intro a ha
  by_cases hid : a.jobId = row'.jobId
  · obtain rfl : a = row := Table.eq_of_key_eq ha h.mem (hid.trans h.jobId)
    refine ⟨row', ?_, h.jobId, .inr ?_, h.snapshot⟩
    · rw [h.jobs, Table.mem_set]
      left
      refine ⟨rfl, a, ha, hid⟩
    · rw [h.revision]
      omega
  · refine ⟨a, ?_, rfl, .inl rfl, fun _ => rfl⟩
    rw [h.jobs, Table.mem_set]
    right
    refine ⟨ha, hid⟩

/-- A write that leaves the jobs. -/
theorem grows_of_quiet (h : Quiet db db') : Grows db db' := by
  intro row hrow
  rw [← h.jobs] at hrow
  refine ⟨row, hrow, rfl, .inl rfl, fun _ => rfl⟩

/-- The jobs grow with every write. -/
theorem Write.grows (h : Write db db') : Grows db db' := by
  cases h with
  | machine outcome effect =>
      cases effect with
      | quiet quiet executions => apply grows_of_quiet quiet
      | inserted e quiet phase authority owner table => apply grows_of_quiet quiet
      | kept prior e quiet kept completed recovery => apply grows_of_quiet quiet
      | ended prior e o row outcome_eq ended => apply grows_of_changed ended.changed
  | advanced row row' event allowed advanced => apply grows_of_changed advanced.changed
  | stored row event stored =>
      intro a ha
      refine ⟨a, ?_, rfl, .inl rfl, fun _ => rfl⟩
      apply (Table.mem_of_insert? stored.jobs).mpr
      left
      apply ha

end Database

/-! ### Runs -/

/-- The database of both repositories, and the copies of jobs that the chain has. -/
structure World where
  db : SharedDatabase
  copies : List JobRecord

namespace World

open Database

/-- The world after a transaction of the chain. A transaction that raises is rolled back. -/
def after (w : World) (result : Except StoreError (JobRecord × SharedDatabase)) : World :=
  match result with
  | .error _ => w
  | .ok (job, db) => ⟨db, job :: w.copies⟩

/-- The world after a transaction of the coordinator. -/
def afterMachine (w : World) (tx : Transaction) : World :=
  { w with db := { w.db with tables := tx.run w.db.tables } }

/-- One step of either side. -/
inductive Step : World → World → Prop
  /-- The chain reads a job. -/
  | read {w : World} (row : JobRecord.Fields) (job : JobRecord) (hrow : row ∈ w.db.tables.jobs)
      (hjob : JobRecord.build row = .ok job) : Step w { w with copies := job :: w.copies }
  /-- The chain stores the job of a request. -/
  | submit {w : World} (jobId : String) (kind : JobKind) (name request : String)
      (config : ConfigSnapshot) (now : Timestamp) (c : OfflineJobChain.Change)
      (commit : OfflineJobChain.Commit) :
      Step w (w.after (OfflineJobChain.submit w.db jobId kind name request config now c commit))
  /-- The chain changes a job that it has a copy of. -/
  | transition {w : World} (job : JobRecord) (hjob : job ∈ w.copies) (state : JobState)
      (c : OfflineJobChain.Change) (commit : OfflineJobChain.Commit) :
      Step w (w.after (OfflineJobChain.transition w.db job state c commit))
  /-- The coordinator runs a transaction. -/
  | machine {w : World} (tx : Transaction) (h : ∀ c ∈ tx.calls, c.Coordinated) :
      Step w (w.afterMachine tx)

/-- The world of a new database. -/
def empty : World where
  db :=
    { tables :=
        { jobs := .empty _
          executions := .empty _
          sessions := .empty _
          challenges := .empty _
          requests := .empty _
          events := .empty _
          progress := .empty _
          jobEvents := .empty _
          auditEvents := .empty _ }
      artifacts := .empty _ }
  copies := []

/-- A world that a run reaches from a new database. -/
def Reachable (w : World) : Prop := Relation.ReflTransGen Step empty w

variable {w w' : World}

/-- Every copy is of a stored job, and is the stored job unless the job has changed. -/
def Copied (w : World) : Prop :=
  ∀ job ∈ w.copies, ∃ row ∈ w.db.tables.jobs, row.jobId = job.val.jobId ∧
    (row = job.val ∨ job.val.revision < row.revision)

/-- A copy stays a copy while the jobs grow. -/
theorem Copied.of_grows (hw : Copied w) {db : SharedDatabase}
    (h : Grows w.db.tables db.tables) :
  Copied ⟨db, w.copies⟩
  := by
  intro job hjob
  obtain ⟨row, hrow, hid, hrevision⟩ := hw job hjob
  obtain ⟨row', hrow', hid', hrevision', -⟩ := h row hrow
  refine ⟨row', hrow', hid'.trans hid, ?_⟩
  rcases hrevision with rfl | hlt
  · apply hrevision'
  · right
    rcases hrevision' with rfl | hlt'
    · apply hlt
    · omega

/-- A copy that was just stored. -/
theorem Copied.cons (hw : Copied w) {job : JobRecord} (hjob : job.val ∈ w.db.tables.jobs) :
  Copied { w with copies := job :: w.copies }
  := by
  intro copy hcopy
  rcases List.mem_cons.mp hcopy with rfl | hcopy
  · refine ⟨copy.val, hjob, rfl, .inl rfl⟩
  · apply hw copy hcopy

/-- The writes of a transaction of the coordinator. -/
theorem writes_of_run {db : Database} {tx : Transaction} (h : ∀ c ∈ tx.calls, c.Coordinated) :
  Relation.ReflTransGen Write db (tx.run db)
  := by
  unfold Transaction.run
  split
  · apply Relation.ReflTransGen.refl
  · next db' hrun =>
      split
      · apply foldlM_apply (P := fun a => Relation.ReflTransGen Write db a) _ hrun .refl
        intro c hc a b hcall ha
        have heffects := effects_of_call hcall (h c hc)
        apply ha.trans
        apply heffects.lift id
        intro x y hxy
        apply Write.machine _ hxy
      · apply Relation.ReflTransGen.refl

/-- The jobs grow with every run of writes. -/
theorem grows_of_writes {db db' : Database} (h : Relation.ReflTransGen Write db db') :
  Grows db db'
  := by
  induction h with
  | refl => apply Grows.refl
  | tail _ hwrite ih => apply ih.trans hwrite.grows

/-- What every write keeps, a run of writes keeps. -/
theorem keeps_of_writes {P : Database → Prop} {db db' : Database}
    (hwrite : ∀ {a b : Database}, Write a b → P a → P b)
    (h : Relation.ReflTransGen Write db db') (hdb : P db) :
  P db'
  := by
  induction h with
  | refl => apply hdb
  | tail _ hlast ih => apply hwrite hlast ih

/-- What a step writes, and the copies after it. The change that the chain makes is allowed
for the job as it is stored: a copy at the stored revision is the stored job. -/
theorem Step.writes (h : Step w w') (hw : Copied w) :
  Relation.ReflTransGen Write w.db.tables w'.db.tables ∧ Copied w'
  := by
  cases h with
  | read row job hrow hjob =>
      use .refl
      apply hw.cons
      rw [acceptIf_eq_ok_iff.mp hjob]
      apply hrow
  | submit jobId kind name request config now c commit =>
      unfold after
      split
      · use .refl, hw
      · next job db hresult =>
          obtain ⟨event, hstored⟩ := OfflineJobChain.stored_of_submit hresult
          have hwrite := Write.stored job.val event hstored
          use .single hwrite
          apply (hw.of_grows hwrite.grows).cons
          apply (Table.mem_of_insert? hstored.jobs).mpr
          right
          rfl
  | transition job hjob state c commit =>
      unfold after
      split
      · use .refl, hw
      · next job' db hresult =>
          obtain ⟨hallowed, row, event, hid, hrevision, hstate, hadvanced⟩ :=
            OfflineJobChain.advanced_of_transition hresult
          obtain ⟨stored, hstored, hstoredId, hcopy⟩ := hw job hjob
          obtain rfl : stored = row :=
            Table.eq_of_key_eq hstored hadvanced.changed.mem (hstoredId.trans hid.symm)
          obtain rfl : stored = job.val := by
            rcases hcopy with heq | hlt
            · apply heq
            · omega
          have hwrite : Write w.db.tables db.tables := by
            apply Write.advanced job.val job'.val event _ hadvanced
            rw [hstate]
            apply hallowed
          use .single hwrite
          apply (hw.of_grows hwrite.grows).cons
          rw [hadvanced.changed.jobs, Table.mem_set]
          left
          refine ⟨rfl, job.val, hstored, hadvanced.changed.jobId.symm⟩
  | machine tx hcalls =>
      have hwrites : Relation.ReflTransGen Write w.db.tables (w.afterMachine tx).db.tables :=
        writes_of_run hcalls
      use hwrites
      apply hw.of_grows (grows_of_writes hwrites)

/-- In every world that a run reaches, the copies are of the stored jobs, and what every
write keeps holds if it does in a new database. -/
theorem Reachable.keeps {P : Database → Prop} (h : Reachable w) (hempty : P empty.db.tables)
    (hwrite : ∀ {a b : Database}, Write a b → P a → P b) :
  Copied w ∧ P w.db.tables
  := by
  induction h with
  | refl =>
      refine ⟨?_, hempty⟩
      intro job hjob
      cases hjob
  | tail _ hstep ih =>
      obtain ⟨hwrites, hcopied⟩ := hstep.writes ih.1
      use hcopied
      apply keeps_of_writes hwrite hwrites ih.2

end World

end DrawingMachine
