import DrawingMachine.Persistence.Histories

/-!
# The jobs after a restart

When the service starts, every job that was in flight is moved to `FAILED`, each in a
transaction of its own and in the order of the identifiers. The constructor of a job refuses
a job that was updated before it was created, so the first such job for which the clock reads
too little stops the reconciliation; the jobs before it stay failed, and the others stay as
they were.
-/

namespace DrawingMachine

namespace OfflineJobChain

open Database SharedDatabase

/-! ### The reconciliation -/

/-- The states of a job in flight. -/
def inflight : List JobState :=
  [ .queued, .preparingImage, .planningPaths, .buildingGcode, .validatingGcode, .imageReady,
    .pathPlanReady ]

/-- What the environment gives the reconciliation of a job: the identifiers of its request
and of its event, and the readings of the clock. -/
structure Restart where
  requestUuid : String
  eventId : String
  occurredAt : Timestamp
  updatedAt : Timestamp
  recordedAt : Timestamp

/-- The request of the reconciliation of a job. -/
def Restart.requestId (restart : Restart) : String := "service-restart-" ++ restart.requestUuid

/-- The transaction of the reconciliation of a job. Nothing withdraws it. -/
def Restart.commit (restart : Restart) : Commit where
  eventId := restart.eventId
  occurredAt := restart.occurredAt
  updatedAt := restart.updatedAt
  recordedAt := restart.recordedAt
  allowed := true

/-- The error of a job that was in flight when the service ended. -/
def serviceRestarted (jobId requestId : String) : JobError where
  payload := {
    code := "SERVICE_RESTARTED"
    category := .service
    message := "service restarted while the job was in flight"
    retryable := false
    details := [] }
  requestId := some requestId
  jobId := some jobId

/-- The job after its reconciliation. -/
def failedFields (job : JobRecord.Fields) (restart : Restart) : JobRecord.Fields :=
  { job with
    state := .failed
    revision := job.revision + 1
    blocker := none
    error := some (serviceRestarted job.jobId restart.requestId)
    readySnapshot := none
    updatedAt := restart.updatedAt }

/-- The identifier of an event is new. -/
structure FreshEvent (db : Database) (eventId : String) : Prop where
  ne : eventId ≠ ""
  jobEvents : ∀ e ∈ db.jobEvents, e.val.eventId ≠ eventId
  auditEvents : ∀ a ∈ db.auditEvents, a.eventId ≠ eventId

/-- What the reconciliation of a job leaves. -/
structure FailedBy (db : SharedDatabase) (job : JobRecord.Fields) (restart : Restart)
    (db' : SharedDatabase) : Prop where
  jobs : db'.tables.jobs = db.tables.jobs.set (failedFields job restart)
  event : ∃ event ∈ db'.tables.jobEvents, event.val.jobId = job.jobId ∧
    event.val.jobRevision = job.revision + 1 ∧ event.val.eventType = "job.service_restarted" ∧
    event.val.priorState = some job.state ∧ event.val.resultState = .failed
  jobEvents : ∀ e, e ∈ db.tables.jobEvents → e ∈ db'.tables.jobEvents
  newJobEvents : ∀ e ∈ db'.tables.jobEvents, e ∈ db.tables.jobEvents ∨ e.val.eventId = restart.eventId
  newAuditEvents : ∀ a ∈ db'.tables.auditEvents,
    a ∈ db.tables.auditEvents ∨ a.eventId = restart.eventId

variable {db db' : SharedDatabase} {job job' : JobRecord} {restart : Restart}

/-- The job was moved to `FAILED`, and its event was recorded. -/
structure MovedToFailed (db : Database) (row : JobRecord.Fields) (restart : Restart) : Prop where
  stored : failedFields row restart ∈ db.jobs
  event : ∃ event ∈ db.jobEvents, event.val.jobId = row.jobId ∧
    event.val.jobRevision = row.revision + 1 ∧ event.val.eventType = "job.service_restarted" ∧
    event.val.priorState = some row.state ∧ event.val.resultState = .failed

/-- The environment gives new identifiers to the events of the jobs. -/
structure FreshIdentifiers (db : Database) (restarts : String → Restart) (ids : List String) :
    Prop where
  fresh : ∀ id ∈ ids, FreshEvent db (restarts id).eventId
  distinct : ∀ id ∈ ids, ∀ id' ∈ ids, (restarts id).eventId = (restarts id').eventId → id = id'

/-- Jobs that are still to be reconciled: they are stored, in flight and different. -/
structure Waiting (db : Database) (jobs : List JobRecord) : Prop where
  stored : ∀ job ∈ jobs, job.val ∈ db.jobs
  inflight : ∀ job ∈ jobs, job.val.state ∈ inflight
  nodup : (jobs.map fun job => job.val.jobId).Nodup

/-- What the reconciliation of the jobs that come first leaves. -/
structure Reconciled (db : Database) (restarts : String → Restart) (done : List JobRecord)
    (db' : Database) : Prop where
  failed : ∀ job ∈ done, MovedToFailed db' job.val (restarts job.val.jobId)
  kept : ∀ row ∈ db.jobs, (∀ job ∈ done, job.val.jobId ≠ row.jobId) → row ∈ db'.jobs
  only : ∀ row' ∈ db'.jobs, ∃ row ∈ db.jobs, row'.jobId = row.jobId
  jobEvents : ∀ e, e ∈ db.jobEvents → e ∈ db'.jobEvents

variable {restarts : String → Restart} {jobs : List JobRecord}

/-- The jobs that wait after the first of them was reconciled. -/
theorem Waiting.tail (h : Waiting db.tables (job :: jobs))
    (hstep : FailedBy db job.val restart db') :
  Waiting db'.tables jobs
  := by
  obtain ⟨hnotMem, hnodup⟩ := List.nodup_cons.mp h.nodup
  constructor
  · intro a ha
    rw [hstep.jobs]
    apply Table.mem_set.mpr
    right
    use h.stored a (List.mem_cons_of_mem _ ha)
    intro heq
    apply hnotMem
    apply List.mem_map.mpr ⟨a, ha, heq⟩
  · intro a ha
    apply h.inflight a (List.mem_cons_of_mem _ ha)
  · apply hnodup

/-- The identifiers of the jobs that wait are still new. -/
theorem FreshIdentifiers.tail
    (h : FreshIdentifiers db.tables restarts ((job :: jobs).map fun job => job.val.jobId))
    (hwaiting : Waiting db.tables (job :: jobs))
    (hstep : FailedBy db job.val (restarts job.val.jobId) db') :
  FreshIdentifiers db'.tables restarts (jobs.map fun job => job.val.jobId)
  := by
  obtain ⟨hnotMem, -⟩ := List.nodup_cons.mp hwaiting.nodup
  have hother : ∀ id ∈ jobs.map fun job => job.val.jobId,
      (restarts job.val.jobId).eventId ≠ (restarts id).eventId := by
    intro id hid heq
    apply hnotMem
    rw [h.distinct _ List.mem_cons_self _ (List.mem_cons_of_mem _ hid) heq]
    apply hid
  constructor
  · intro id hid
    have hfresh := h.fresh id (List.mem_cons_of_mem _ hid)
    constructor
    · apply hfresh.ne
    · intro e he
      obtain he | he := hstep.newJobEvents e he
      · apply hfresh.jobEvents e he
      · rw [he]
        apply hother id hid
    · intro a ha
      obtain ha | ha := hstep.newAuditEvents a ha
      · apply hfresh.auditEvents a ha
      · rw [ha]
        apply hother id hid
  · intro id hid id' hid'
    apply h.distinct id (List.mem_cons_of_mem _ hid) id' (List.mem_cons_of_mem _ hid')

/-- The reconciliation of a job, followed by that of those after it. -/
theorem Reconciled.cons {done : List JobRecord} {db'' : Database}
    (hwaiting : Waiting db.tables (job :: jobs)) (hsub : ∀ a ∈ done, a ∈ jobs)
    (hstep : FailedBy db job.val (restarts job.val.jobId) db')
    (h : Reconciled db'.tables restarts done db'') :
  Reconciled db.tables restarts (job :: done) db''
  := by
  obtain ⟨hnotMem, -⟩ := List.nodup_cons.mp hwaiting.nodup
  have hmem : job.val ∈ db.tables.jobs := hwaiting.stored job List.mem_cons_self
  constructor
  · intro a ha
    obtain rfl | ha := List.mem_cons.mp ha
    · obtain ⟨event, hevent, hfacts⟩ := hstep.event
      constructor
      · apply h.kept
        · rw [hstep.jobs]
          apply Table.mem_set.mpr
          left
          exact ⟨rfl, a.val, hmem, rfl⟩
        · intro b hb heq
          apply hnotMem
          apply List.mem_map.mpr ⟨b, hsub b hb, heq⟩
      · use event, h.jobEvents event hevent
    · apply h.failed a ha
  · intro row hrow hne
    apply h.kept
    · rw [hstep.jobs]
      apply Table.mem_set.mpr
      right
      use hrow
      intro heq
      apply hne job List.mem_cons_self heq.symm
    · intro a ha
      apply hne a (List.mem_cons_of_mem _ ha)
  · intro row' hrow'
    obtain ⟨row, hrow, hid⟩ := h.only row' hrow'
    rw [hstep.jobs] at hrow
    obtain ⟨rfl, b, hb, hkey⟩ | ⟨hrow, -⟩ := Table.mem_set.mp hrow
    · use b, hb
      rw [hid]
      apply hkey.symm
    · use row, hrow
  · intro e he
    apply h.jobEvents e (hstep.jobEvents e he)

end OfflineJobChain

end DrawingMachine
