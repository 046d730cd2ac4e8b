import DrawingMachine.Base.Chain
import DrawingMachine.Persistence.Agreement

/-!
# Histories of jobs

The events of a job tell how it came to be as it is stored: a path from its request to its
row, one event for every revision, along changes that the domain allows and outcomes of the
machine. Every write of either repository extends the path of the job it changes, and
leaves the others.
-/

namespace DrawingMachine

open OfflineJobChain (blockerCode)

/-! ### Paths -/

/-- The changes that the outcome of an execution makes to a job. -/
def machineEdge (prior result : JobState) : Prop :=
  (prior = .readyToRun ∨ prior = .recoveryRequired) ∧
    (result = .completed ∨ result = .recoveryRequired)

/-- One event of a job, which changed it from one row to the next. -/
structure LegalChange (row : JobRecord.Fields) (event : JobEvent) (row' : JobRecord.Fields) :
    Prop where
  jobId : row'.jobId = row.jobId
  kind : row'.kind = row.kind
  revision : row'.revision = row.revision + 1
  eventRevision : event.val.jobRevision = row.revision + 1
  eventPrior : event.val.priorState = some row.state
  eventResult : event.val.resultState = row'.state
  edge : allowedTransition row.state row'.state (blockerCode row) row.kind = true ∨
    machineEdge row.state row'.state
  snapshot : row.readySnapshot ≠ none → row'.readySnapshot = row.readySnapshot

/-- The events that lead a job to a row. -/
inductive LegalPath : List JobEvent → JobRecord.Fields → Prop
  | created {event : JobEvent} {row : JobRecord.Fields} (revision : row.revision = 0)
      (eventRevision : event.val.jobRevision = 0) (eventPrior : event.val.priorState = none)
      (eventResult : event.val.resultState = row.state) : LegalPath [event] row
  | changed {events : List JobEvent} {event : JobEvent} {row row' : JobRecord.Fields}
      (path : LegalPath events row) (change : LegalChange row event row') :
      LegalPath (events ++ [event]) row'

namespace LegalPath

variable {events : List JobEvent} {row : JobRecord.Fields}

/-- A path has one event for every revision of the job, in their order. -/
theorem revisions (h : LegalPath events row) :
  events.map (fun e => e.val.jobRevision) = List.range (row.revision + 1)
  := by
  induction h with
  | created revision eventRevision _ _ => simp [revision, eventRevision]
  | changed _ change ih =>
      rw [List.map_append, ih, change.revision]
      simp [List.range_succ, change.eventRevision]

/-- The last event of a path has led to the row. -/
theorem last (h : LegalPath events row) :
  ∃ event, events.getLast? = some event ∧ event.val.resultState = row.state
  := by
  cases h with
  | created revision eventRevision eventPrior eventResult => exact ⟨_, rfl, eventResult⟩
  | changed path change => exact ⟨_, by simp, change.eventResult⟩

/-- Every event of a path starts where the one before it ended. -/
theorem chained (h : LegalPath events row) :
  events.IsChain fun a b => b.val.priorState = some a.val.resultState
  := by
  induction h with
  | created _ _ _ _ => apply List.IsChain.singleton
  | changed path change ih =>
      apply ih.append (List.IsChain.singleton _)
      intro a ha b hb
      obtain ⟨event, hlast, hresult⟩ := path.last
      rw [hlast] at ha
      obtain rfl : event = a := by simpa using ha
      obtain rfl : _ = b := by simpa using hb
      rw [change.eventPrior, hresult]

end LegalPath

namespace Database

variable {db db' : Database}

/-! ### The histories of a database -/

/-- The events of a job. -/
def history (db : Database) (jobId : String) : List JobEvent :=
  db.jobEvents.rows.filter fun event => event.val.jobId = jobId

/-- Every job has its path, and every event its job and its audit record. -/
structure Histories (db : Database) : Prop where
  path : ∀ job ∈ db.jobs, LegalPath (db.history job.jobId) job
  job : ∀ event ∈ db.jobEvents, ∃ job ∈ db.jobs, job.jobId = event.val.jobId
  audit : ∀ event ∈ db.jobEvents, ∃ a ∈ db.auditEvents, a.eventId = event.val.eventId ∧
    a.eventType = event.val.eventType ∧ a.requestId = event.val.requestId

/-- A database without jobs and events. -/
theorem histories_empty (hjobs : db.jobs.rows = []) (hevents : db.jobEvents.rows = []) :
  Histories db
  := by
  constructor
  · intro job hjob
    rw [Table.mem_def, hjobs] at hjob
    cases hjob
  · intro event hevent
    rw [Table.mem_def, hevents] at hevent
    cases hevent
  · intro event hevent
    rw [Table.mem_def, hevents] at hevent
    cases hevent

/-- A recorded event extends the history of its job. -/
theorem Logged.history {event : JobEvent} (h : Logged db event db') :
  db'.history event.val.jobId = db.history event.val.jobId ++ [event]
  := by
  unfold Database.history
  rw [(Table.insert?_eq_some_iff.mp h.jobEvents).2, List.filter_append]
  simp

/-- A recorded event leaves the histories of the other jobs. -/
theorem Logged.history_of_ne {event : JobEvent} (h : Logged db event db') {jobId : String}
    (hne : event.val.jobId ≠ jobId) :
  db'.history jobId = db.history jobId
  := by
  unfold Database.history
  rw [(Table.insert?_eq_some_iff.mp h.jobEvents).2, List.filter_append]
  simp [hne]

/-- Every event has its audit record after another one was recorded. -/
theorem Logged.audit {event : JobEvent} (hlogged : Logged db event db') (h : Histories db) :
  ∀ event ∈ db'.jobEvents, ∃ a ∈ db'.auditEvents, a.eventId = event.val.eventId ∧
    a.eventType = event.val.eventType ∧ a.requestId = event.val.requestId
  := by
  intro event' hevent'
  obtain hevent' | rfl := (Table.mem_of_insert? hlogged.jobEvents).mp hevent'
  · obtain ⟨a, ha, hmatch⟩ := h.audit event' hevent'
    exact ⟨a, hlogged.audits a ha, hmatch⟩
  · apply hlogged.audited

/-! ### Writes -/

/-- A write that leaves the jobs and their events. -/
theorem Histories.of_quiet (h : Histories db) (hquiet : Quiet db db') : Histories db' := by
  constructor
  · intro job hjob
    rw [hquiet.jobs] at hjob
    unfold history
    rw [hquiet.jobEvents]
    apply h.path job hjob
  · intro event hevent
    rw [hquiet.jobEvents] at hevent
    rw [hquiet.jobs]
    apply h.job event hevent
  · intro event hevent
    rw [hquiet.jobEvents] at hevent
    obtain ⟨a, ha, hmatch⟩ := h.audit event hevent
    exact ⟨a, hquiet.audits a ha, hmatch⟩

/-- A change of a job extends its path. -/
theorem Histories.of_changed (h : Histories db) {row row' : JobRecord.Fields} {event : JobEvent}
    (hchanged : Changed db row row' event db')
    (hedge : allowedTransition row.state row'.state (blockerCode row) row.kind = true ∨
      machineEdge row.state row'.state) :
  Histories db'
  := by
  have hlogged := hchanged.logged
  have hset : row' ∈ db'.jobs := by
    rw [hchanged.jobs, Table.mem_set]
    left
    exact ⟨rfl, row, hchanged.mem, hchanged.jobId.symm⟩
  constructor
  · intro job hjob
    rw [hchanged.jobs, Table.mem_set] at hjob
    obtain ⟨rfl, -⟩ | ⟨hjob, hne⟩ := hjob
    · have hhistory := hlogged.history
      rw [hchanged.eventJob, ← hchanged.jobId] at hhistory
      rw [hhistory, hchanged.jobId]
      apply LegalPath.changed (h.path row hchanged.mem)
      constructor
      · apply hchanged.jobId
      · apply hchanged.kind
      · apply hchanged.revision
      · apply hchanged.eventRevision
      · apply hchanged.eventPrior
      · apply hchanged.eventResult
      · apply hedge
      · apply hchanged.snapshot
    · have hne' : event.val.jobId ≠ job.jobId := by
        rw [hchanged.eventJob, ← hchanged.jobId]
        apply hne.symm
      rw [hlogged.history_of_ne hne']
      apply h.path job hjob
  · intro event' hevent'
    have hjob : ∃ job ∈ db.jobs, job.jobId = event'.val.jobId := by
      obtain hevent' | rfl := (Table.mem_of_insert? hlogged.jobEvents).mp hevent'
      · apply h.job event' hevent'
      · exact ⟨row, hchanged.mem, hchanged.eventJob.symm⟩
    obtain ⟨job, hjob, hid⟩ := hjob
    obtain ⟨job', hjob', hid', -⟩ := grows_of_changed hchanged job hjob
    exact ⟨job', hjob', hid'.trans hid⟩
  · apply hlogged.audit h

/-- A job that is stored starts its path. -/
theorem Histories.of_stored (h : Histories db) {row : JobRecord.Fields} {event : JobEvent}
    (hstored : Stored db row event db') :
  Histories db'
  := by
  have hlogged := hstored.logged
  have hnew := (Table.insert?_eq_some_iff.mp hstored.jobs).1
  constructor
  · intro job hjob
    obtain hjob | rfl := (Table.mem_of_insert? hstored.jobs).mp hjob
    · have hne : event.val.jobId ≠ job.jobId := by
        rw [hstored.eventJob]
        exact (hnew job hjob).symm
      rw [hlogged.history_of_ne hne]
      apply h.path job hjob
    · -- No event was recorded for the new identifier.
      have hnone : db.history job.jobId = [] := by
        apply List.filter_eq_nil_iff.mpr
        intro event' hevent' hid
        obtain ⟨other, hother, hotherId⟩ := h.job event' hevent'
        apply hnew other hother
        exact hotherId.trans (of_decide_eq_true hid)
      have hhistory := hlogged.history
      rw [hstored.eventJob] at hhistory
      rw [hhistory, hnone]
      apply LegalPath.created hstored.revision hstored.eventRevision hstored.eventPrior
      rw [hstored.eventResult, hstored.state]
  · intro event' hevent'
    obtain hevent' | rfl := (Table.mem_of_insert? hlogged.jobEvents).mp hevent'
    · obtain ⟨job, hjob, hid⟩ := h.job event' hevent'
      exact ⟨job, (Table.mem_of_insert? hstored.jobs).mpr (.inl hjob), hid⟩
    · exact ⟨row, (Table.mem_of_insert? hstored.jobs).mpr (.inr rfl), hstored.eventJob.symm⟩
  · apply hlogged.audit h

/-- The outcome of an execution changes its job along an edge of the machine. -/
theorem Ended.machineEdge (h : Agrees db) {prior : ExecutionRow} {e : MachineExecution}
    {o : JobOutcome} {row : JobRecord.Fields} (hended : Ended db prior e o row db') :
  machineEdge row.state (outcomeRow row o.transition o.outcome.val.occurredAt).state
  := by
  use hended.jobState h
  have hstate : (outcomeRow row o.transition o.outcome.val.occurredAt).state =
      o.outcome.val.kind.jobState := hended.state
  rw [hstate]
  cases o.outcome.val.kind with
  | completed =>
      left
      rfl
  | recoveryRequired =>
      right
      rfl

/-- Every write keeps the paths, where the jobs agree with the executions. -/
theorem Histories.of_write (h : Histories db) (hagrees : Agrees db) (hwrite : Write db db') :
  Histories db'
  := by
  cases hwrite with
  | machine outcome effect =>
      cases effect with
      | quiet quiet executions => apply h.of_quiet quiet
      | inserted e quiet phase authority owner table => apply h.of_quiet quiet
      | kept prior e quiet kept completed recovery => apply h.of_quiet quiet
      | ended prior e o row outcome_eq ended =>
          apply h.of_changed ended.changed
          right
          apply ended.machineEdge hagrees
  | advanced row row' event allowed advanced =>
      apply h.of_changed advanced.changed
      left
      apply allowed
  | stored row event stored => apply h.of_stored stored

end Database

namespace World

open Database

variable {w : World}

/-! ### Every run -/

/-- The history of a job, as it is stored. -/
structure LegalHistory (db : Database) (job : JobRecord.Fields) : Prop where
  path : LegalPath (db.history job.jobId) job
  /-- One event for every revision, from the first to the current one. -/
  revisions : (db.history job.jobId).map (fun e => e.val.jobRevision) =
    List.range (job.revision + 1)
  chained : (db.history job.jobId).IsChain fun a b => b.val.priorState = some a.val.resultState
  last : ∃ event, (db.history job.jobId).getLast? = some event ∧
    event.val.resultState = job.state
  /-- One audit record for every event. -/
  audited : ∀ event ∈ db.history job.jobId, ∃ a ∈ db.auditEvents,
    (a.eventId = event.val.eventId ∧ a.eventType = event.val.eventType ∧
      a.requestId = event.val.requestId) ∧
    ∀ b ∈ db.auditEvents, b.eventId = event.val.eventId → b = a

/-- In every world that a run reaches, the histories are paths. -/
theorem Reachable.histories (h : Reachable w) : Histories w.db.tables := by
  have hempty : Agrees empty.db.tables ∧ Histories empty.db.tables :=
    ⟨agrees_empty rfl rfl, histories_empty rfl rfl⟩
  have hkeeps := h.keeps (P := fun db => Agrees db ∧ Histories db) hempty
    fun hwrite hdb => ⟨hdb.1.of_write hwrite, hdb.2.of_write hdb.1 hwrite⟩
  apply hkeeps.2.2

/-- A transaction that is no longer allowed to commit raises. -/
theorem raises_of_not_allowed {db : SharedDatabase} {job : JobRecord} {state : JobState}
    {c : OfflineJobChain.Change} {commit : OfflineJobChain.Commit}
    (h : commit.allowed = false) (updated : JobRecord × SharedDatabase) :
  OfflineJobChain.transition db job state c commit ≠ .ok updated
  := by
  intro hok
  simp only [OfflineJobChain.transition, Except.bind_eq_ok_iff, Except.exists_unit_iff,
    rejectIf_eq_ok_iff] at hok
  obtain ⟨-, _, -, _, -, _, -, hallowed, -⟩ := hok
  apply hallowed h

/-- What a transaction of the chain leaves: a transaction that raises leaves everything. -/
theorem after_of_raises {result : Except StoreError (JobRecord × SharedDatabase)}
    (h : ∀ updated, result ≠ .ok updated) :
  w.after result = w
  := by
  cases result with
  | error e => rfl
  | ok updated => exact absurd rfl (h updated)

/-- What a transaction of the coordinator leaves: one that raises or is rolled back leaves
everything. -/
theorem run_of_raises {tx : Transaction} {db : Database}
    (h : tx.commit = false ∨ ∀ db', tx.calls.foldlM Call.apply db ≠ .ok db') :
  tx.run db = db
  := by
  unfold Transaction.run
  split
  · rfl
  · next db' hrun =>
      obtain hcommit | hraises := h
      · simp [hcommit]
      · exact absurd hrun (hraises db')

/-- In every world that the two repositories reach together, the history of every job is a
legal path to its row. A step keeps every snapshot that is stored, and a transaction that
raises, is abandoned or is rolled back leaves the database as it was. -/
theorem job_histories_legal (h : Reachable w) :
  (∀ job ∈ w.db.tables.jobs, LegalHistory w.db.tables job) ∧
    (∀ w', Step w w' → ∀ job ∈ w.db.tables.jobs, ∃ job' ∈ w'.db.tables.jobs,
      job'.jobId = job.jobId ∧
        (job.readySnapshot ≠ none → job'.readySnapshot = job.readySnapshot)) ∧
    (∀ job state c commit,
      (commit.allowed = false ∨
        ∀ updated, OfflineJobChain.transition w.db job state c commit ≠ .ok updated) →
      w.after (OfflineJobChain.transition w.db job state c commit) = w) ∧
    (∀ jobId kind name request config now c commit,
      (∀ updated,
        OfflineJobChain.submit w.db jobId kind name request config now c commit ≠ .ok updated) →
      w.after (OfflineJobChain.submit w.db jobId kind name request config now c commit) = w) ∧
    ∀ tx : Transaction,
      (tx.commit = false ∨
        ∀ db', tx.calls.foldlM Call.apply w.db.tables ≠ .ok db') →
      w.afterMachine tx = w
  := by
  have hhistories := h.histories
  refine ⟨?_, ?_, ?_, ?_, ?_⟩
  · intro job hjob
    have hpath := hhistories.path job hjob
    constructor
    · apply hpath
    · apply hpath.revisions
    · apply hpath.chained
    · apply hpath.last
    · intro event hevent
      obtain ⟨a, ha, hmatch⟩ := hhistories.audit event (List.mem_of_mem_filter hevent)
      refine ⟨a, ha, hmatch, ?_⟩
      intro b hb hid
      apply Table.eq_of_key_eq hb ha
      exact hid.trans hmatch.1.symm
  · intro w' hstep job hjob
    have hcopied : Copied w := (h.keeps (P := fun _ => True) trivial fun _ _ => trivial).1
    obtain ⟨hwrites, -⟩ := hstep.writes hcopied
    obtain ⟨job', hjob', hid, -, hsnapshot⟩ := grows_of_writes hwrites job hjob
    exact ⟨job', hjob', hid, hsnapshot⟩
  · intro job state c commit hraises
    apply after_of_raises
    obtain hallowed | hraises := hraises
    · apply raises_of_not_allowed hallowed
    · apply hraises
  · intro jobId kind name request config now c commit hraises
    apply after_of_raises hraises
  · intro tx hraises
    unfold afterMachine
    rw [run_of_raises hraises]

/-- The history of the sample drawing. -/
theorem sample_history_legal :
  (∃ job ∈ readyWorld.db.tables.jobs, job.revision = 7) ∧
    ∀ job ∈ readyWorld.db.tables.jobs, LegalHistory readyWorld.db.tables job
  := by
  have hready : ∃ job ∈ readyWorld.db.tables.jobs.rows, job.revision = 7 := by
    decide +kernel
  exact ⟨hready, (job_histories_legal reachable_readyWorld).1⟩

end World

end DrawingMachine
