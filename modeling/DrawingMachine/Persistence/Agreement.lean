import DrawingMachine.Persistence.SharedRuns

/-!
# Agreement of jobs and executions

The execution that owns the machine draws a job that waits for it. `Agrees` is the relation
of the jobs to the executions that every write keeps: a job is not changed under the
execution that draws it, except by the outcome that ends the execution.
-/

namespace DrawingMachine

namespace Database

open Executions

variable {db db' : Database}

/-! ### The relation -/

/-- The job of an execution that owns the machine. It is ready, at the revision at which
the execution was prepared; it needs recovery when the execution does or is a successor. -/
def JobAgrees (e : MachineExecution.Fields) (job : JobRecord.Fields) : Prop :=
  job.jobId = e.jobId ∧
    if e.predecessorExecutionId = none ∧ e.phase ≠ .recoveryRequired then
      job.state = .readyToRun ∧ job.revision = e.readyRevision
    else job.state = .recoveryRequired

/-- The last execution of a job. -/
def lastExecution (db : Database) (jobId : String) : Option ExecutionRow :=
  (db.executions.rows.filter fun row => row.execution.val.jobId = jobId).getLast?

/-- The jobs agree with the executions. -/
structure Agrees (db : Database) : Prop where
  /-- The job of the owner of the machine. -/
  job : ∀ row ∈ db.executions, row.Active → ∃ job ∈ db.jobs, JobAgrees row.execution.val job
  /-- A completed execution has its outcome. -/
  completed : ∀ row ∈ db.executions, row.execution.val.phase = .completed → row.outcome ≠ none
  /-- An outcome is of a revision that the execution had. -/
  outcome : ∀ row ∈ db.executions, ∀ o, row.outcome = some o →
    o.val.executionRevision ≤ row.execution.val.revision
  /-- The owner of the machine is the last execution. -/
  last : ∀ row ∈ db.executions, row.Active → db.executions.rows.getLast? = some row
  /-- A drawing that is completed was completed by its last execution. -/
  drawn : ∀ job ∈ db.jobs, job.kind = .offlineWorkflow → job.state = .completed →
    ∃ row, db.lastExecution job.jobId = some row ∧ row.execution.val.phase = .completed

/-- The job of the owner of the machine waits for the machine. -/
theorem JobAgrees.state {e : MachineExecution.Fields} {job : JobRecord.Fields}
    (h : JobAgrees e job) :
  job.state = .readyToRun ∨ job.state = .recoveryRequired
  := by
  obtain ⟨-, h⟩ := h
  split at h
  · left
    apply h.1
  · right
    apply h

/-- The jobs of a database without jobs and executions agree. -/
theorem agrees_empty (hjobs : db.jobs.rows = []) (hexecutions : db.executions.rows = []) :
  Agrees db
  := by
  have hnone : ∀ row, row ∉ db.executions := by
    intro row
    simp [Table.mem_def, hexecutions]
  constructor
  · intro row hrow
    apply absurd hrow (hnone row)
  · intro row hrow
    apply absurd hrow (hnone row)
  · intro row hrow
    apply absurd hrow (hnone row)
  · intro row hrow
    apply absurd hrow (hnone row)
  · intro job hjob
    rw [Table.mem_def, hjobs] at hjob
    cases hjob

/-! ### Revisions and the last execution -/

/-- The last element of a list is the last of those with a property it has. -/
theorem getLast?_filter {α : Type} {p : α → Bool} {l : List α} {a : α} (h : l.getLast? = some a)
    (ha : p a = true) :
  (l.filter p).getLast? = some a
  := by
  obtain ⟨l', rfl⟩ := List.getLast?_eq_some_iff.mp h
  rw [List.filter_append, List.filter_cons_of_pos ha, List.filter_nil,
    List.getLast?_append_of_ne_nil _ (by simp)]
  rfl

/-- The row that is put in the place of another. -/
def replaced (next row : ExecutionRow) : ExecutionRow :=
  if row.executionId = next.executionId then next else row

/-- The last execution of a job after a revision. -/
theorem lastExecution_set {next prior : ExecutionRow} (hprior : prior ∈ db.executions)
    (hid : prior.executionId = next.executionId)
    (hjob : next.execution.val.jobId = prior.execution.val.jobId)
    (htable : db'.executions = db.executions.set next) (jobId : String) :
  db'.lastExecution jobId = (db.lastExecution jobId).map (replaced next)
  := by
  have hrows : db'.executions.rows = db.executions.rows.map (replaced next) := by
    rw [htable]
    rfl
  have hfilter : db.executions.rows.filter
        ((fun row => decide (row.execution.val.jobId = jobId)) ∘ replaced next) =
      db.executions.rows.filter fun row => decide (row.execution.val.jobId = jobId) := by
    apply List.filter_congr
    intro row hrow
    simp only [Function.comp_apply, replaced]
    split
    · next hkey =>
        obtain rfl : row = prior := Table.eq_of_key_eq hrow hprior (hkey.trans hid.symm)
        rw [hjob]
    · rfl
  unfold lastExecution
  rw [hrows, List.filter_map, hfilter, List.getLast?_map]

/-- The execution that is revised or ended, the owner of the machine and the last one. -/
theorem last_set {next prior : ExecutionRow} (hprior : prior ∈ db.executions)
    (hid : prior.executionId = next.executionId)
    (hactive : next.Active → prior.Active)
    (htable : db'.executions = db.executions.set next)
    (hlast : ∀ row ∈ db.executions, row.Active → db.executions.rows.getLast? = some row) :
  ∀ row ∈ db'.executions, row.Active → db'.executions.rows.getLast? = some row
  := by
  intro row hrow hrowactive
  have hrows : db'.executions.rows = db.executions.rows.map (replaced next) := by
    rw [htable]
    rfl
  rw [htable, Table.mem_set] at hrow
  rw [hrows, List.getLast?_map]
  obtain ⟨rfl, -⟩ | ⟨hmem, hne⟩ := hrow
  · rw [hlast prior hprior (hactive hrowactive), Option.map_some, replaced, if_pos hid]
  · rw [hlast row hmem hrowactive, Option.map_some, replaced, if_neg hne]

/-- The next revision of an execution of the same job. -/
theorem jobId_of_progresses {prior e : MachineExecution} (h : Progresses prior e) :
  e.val.jobId = prior.val.jobId ∧ e.val.readyRevision = prior.val.readyRevision
  := by
  have hb := h.permanentBindings
  simp only [MachineExecution.Fields.permanentBindings, PermanentBindings.mk.injEq] at hb
  refine ⟨?_, ?_⟩ <;> simp [hb]

/-- A completed execution stays completed. -/
theorem completed_of_progresses {prior e : MachineExecution} (h : Progresses prior e)
    (hphase : prior.val.phase = .completed) :
  e.val.phase = .completed
  := by
  obtain ⟨r, hr, hdisposition⟩ := MachineExecution.retirement_of_completed hphase
  apply MachineExecution.phase_of_completed_retirement _ hdisposition
  rw [h.retirement (by rw [hr]; apply Option.some_ne_none), hr]

/-! ### Writes of the coordinator -/

/-- A write that leaves jobs and executions. -/
theorem Agrees.of_same (h : Agrees db) (hjobs : db'.jobs = db.jobs)
    (hexecutions : db'.executions = db.executions) :
  Agrees db'
  := by
  constructor
  · rw [hjobs, hexecutions]
    apply h.job
  · rw [hexecutions]
    apply h.completed
  · rw [hexecutions]
    apply h.outcome
  · rw [hexecutions]
    apply h.last
  · rw [hjobs]
    unfold lastExecution
    rw [hexecutions]
    apply h.drawn

/-- The job of an execution that may be recorded. -/
theorem jobAgrees_of_checkInsertAuthority {e : MachineExecution.Fields}
    (h : db.checkInsertAuthority e = .ok ()) (hphase : e.phase = .preparingSession) :
  ∃ job ∈ db.jobs, JobAgrees e job
  := by
  cases hpredecessor : e.predecessorExecutionId with
  | none =>
      simp only [checkInsertAuthority, hpredecessor, rejectIf_eq_ok_iff, Bool.not_eq_false] at h
      obtain ⟨job, hjob, hready⟩ := (Option.any_eq_true _ _).mp h
      obtain ⟨hmem, hid⟩ := Table.get?_eq_some_iff.mp hjob
      refine ⟨job, hmem, hid, ?_⟩
      rw [if_pos ⟨hpredecessor, by rw [hphase]; decide⟩]
      apply of_decide_eq_true hready
  | some p =>
      simp only [checkInsertAuthority, hpredecessor, Except.unit_bind_eq_ok_iff,
        rejectIf_eq_ok_iff, Bool.not_eq_false] at h
      obtain ⟨job, hjob, hrecovery⟩ := (Option.any_eq_true _ _).mp h.1
      obtain ⟨hmem, hid⟩ := Table.get?_eq_some_iff.mp hjob
      refine ⟨job, hmem, hid, ?_⟩
      rw [if_neg (by simp [hpredecessor])]
      exact (of_decide_eq_true hrecovery).1

/-- A fresh execution is of a job that waits for it. -/
theorem Agrees.of_inserted (h : Agrees db) {e : MachineExecution} (hjobs : db'.jobs = db.jobs)
    (hphase : e.val.phase = .preparingSession)
    (hauthority : db.checkInsertAuthority e.val = .ok ())
    (howner : ∀ row ∈ db.executions, ¬ row.Active)
    (htable : db.executions.insert? ⟨e, none⟩ = some db'.executions) :
  Agrees db'
  := by
  obtain ⟨waiting, hwaiting, hagrees⟩ := jobAgrees_of_checkInsertAuthority hauthority hphase
  have hrows := (Table.insert?_eq_some_iff.mp htable).2
  constructor
  · intro row hrow hactive
    rw [hjobs]
    obtain hrow | rfl := (Table.mem_of_insert? htable).mp hrow
    · apply absurd hactive (howner row hrow)
    · use waiting
  · intro row hrow hcompleted
    obtain hrow | rfl := (Table.mem_of_insert? htable).mp hrow
    · apply h.completed row hrow hcompleted
    · rw [hphase] at hcompleted
      cases hcompleted
  · intro row hrow o ho
    obtain hrow | rfl := (Table.mem_of_insert? htable).mp hrow
    · apply h.outcome row hrow o ho
    · cases ho
  · intro row hrow hactive
    obtain hrow | rfl := (Table.mem_of_insert? htable).mp hrow
    · apply absurd hactive (howner row hrow)
    · rw [hrows, List.getLast?_append_of_ne_nil _ (by simp)]
      rfl
  · intro job hjob hkind hcompleted
    rw [hjobs] at hjob
    obtain ⟨row, hlast, hrowphase⟩ := h.drawn job hjob hkind hcompleted
    refine ⟨row, ?_, hrowphase⟩
    have hne : e.val.jobId ≠ job.jobId := by
      intro heq
      obtain rfl : waiting = job := Table.eq_of_key_eq hwaiting hjob (hagrees.1.trans heq)
      obtain hstate | hstate := hagrees.state <;> rw [hstate] at hcompleted <;> cases hcompleted
    unfold lastExecution
    rw [hrows, List.filter_append, List.filter_cons_of_neg (by simpa using hne), List.filter_nil,
      List.append_nil]
    apply hlast

/-- A revision that does not end the execution leaves the job as it is. -/
theorem Agrees.of_kept (h : Agrees db) {prior : ExecutionRow} {e : MachineExecution}
    (hjobs : db'.jobs = db.jobs) (hkept : Kept db prior e db')
    (hcompleted : e.val.phase ≠ .completed)
    (hrecovery : e.val.retirement = none → e.val.phase = .recoveryRequired →
      e.val.predecessorExecutionId ≠ none) :
  Agrees db'
  := by
  have hid : prior.executionId = e.val.executionId := hkept.progresses.executionId.symm
  obtain ⟨hjobId, hready⟩ := jobId_of_progresses hkept.progresses
  have hactive : (ExecutionRow.mk e prior.outcome).Active → prior.Active :=
    active_of_progresses hkept.progresses
  constructor
  · intro row hrow hrowactive
    rw [hjobs]
    rw [hkept.executions, Table.mem_set] at hrow
    obtain ⟨rfl, -⟩ | ⟨hrow, -⟩ := hrow
    · obtain ⟨job, hjob, hjobid, hstate⟩ := h.job prior hkept.mem (hactive hrowactive)
      refine ⟨job, hjob, hjobid.trans hjobId.symm, ?_⟩
      have hpredecessor := hkept.progresses.predecessorExecutionId
      -- An execution that needs recovery only retires.
      have hprior : prior.execution.val.phase ≠ .recoveryRequired := by
        intro hphase
        apply (hkept.progresses.retires hphase).2 hrowactive.1
      by_cases hnone : e.val.predecessorExecutionId = none
      · have hphase : e.val.phase ≠ .recoveryRequired := by
          intro hphase
          apply hrecovery hrowactive.1 hphase hnone
        rw [if_pos ⟨hpredecessor.symm.trans hnone, hprior⟩] at hstate
        rw [if_pos ⟨hnone, hphase⟩, hready]
        apply hstate
      · rw [if_neg (fun hboth => hnone (hpredecessor.trans hboth.1))] at hstate
        rw [if_neg (fun hboth => hnone hboth.1)]
        apply hstate
    · apply h.job row hrow hrowactive
  · intro row hrow hphase
    rw [hkept.executions, Table.mem_set] at hrow
    obtain ⟨rfl, -⟩ | ⟨hrow, -⟩ := hrow
    · apply absurd hphase hcompleted
    · apply h.completed row hrow hphase
  · intro row hrow o ho
    rw [hkept.executions, Table.mem_set] at hrow
    obtain ⟨rfl, -⟩ | ⟨hrow, -⟩ := hrow
    · have hle := h.outcome prior hkept.mem o ho
      have hnext := hkept.progresses.revision
      simp only
      omega
    · apply h.outcome row hrow o ho
  · apply last_set hkept.mem hid hactive hkept.executions h.last
  · intro job hjob hkind hdone
    rw [hjobs] at hjob
    obtain ⟨row, hlast, hphase⟩ := h.drawn job hjob hkind hdone
    rw [lastExecution_set hkept.mem hid hjobId hkept.executions, hlast]
    refine ⟨_, rfl, ?_⟩
    unfold replaced
    split
    · next hkey =>
        have hmem : row ∈ db.executions :=
          List.mem_of_mem_filter (List.mem_of_getLast? hlast)
        obtain rfl : row = prior := Table.eq_of_key_eq hmem hkept.mem (hkey.trans hid.symm)
        apply completed_of_progresses hkept.progresses hphase
    · apply hphase

/-- The execution that ends owns the machine. A completed execution does not end again: it
has an outcome already, of a revision that it had before. -/
theorem Ended.active (h : Agrees db) {prior : ExecutionRow} {e : MachineExecution}
    {o : JobOutcome} {row : JobRecord.Fields} (hended : Ended db prior e o row db') :
  prior.Active
  := by
  rw [active_iff]
  by_contra hretired
  have hphase : prior.execution.val.phase ≠ .recoveryRequired := by
    intro hphase
    apply not_progresses_of_retired hphase hretired hended.progresses
  have hcompleted : prior.execution.val.phase = .completed := by
    by_contra hne
    apply hretired (MachineExecution.retirement_eq_none hne hphase)
  have houtcome := hended.fresh (h.completed prior hended.mem hcompleted)
  have hle := h.outcome prior hended.mem o.outcome houtcome
  have hrevision := hended.revision
  have hnext := hended.progresses.revision
  omega

/-- The job that an execution leaves its outcome on is the job that waits for it. -/
theorem Ended.jobState (h : Agrees db) {prior : ExecutionRow} {e : MachineExecution}
    {o : JobOutcome} {row : JobRecord.Fields} (hended : Ended db prior e o row db') :
  row.state = .readyToRun ∨ row.state = .recoveryRequired
  := by
  obtain ⟨job, hjob, hagrees⟩ := h.job prior hended.mem (Ended.active h hended)
  have hjobId := (jobId_of_progresses hended.progresses).1
  obtain rfl : job = row := by
    apply Table.eq_of_key_eq hjob hended.changed.mem
    rw [hagrees.1, hended.jobId, hjobId]
  apply hagrees.state

/-- The outcome of an execution leaves its job as the execution is. -/
theorem Agrees.of_ended (h : Agrees db) {prior : ExecutionRow} {e : MachineExecution}
    {o : JobOutcome} {row : JobRecord.Fields} (hended : Ended db prior e o row db') :
  Agrees db'
  := by
  have hprior := Ended.active h hended
  have hid : prior.executionId = e.val.executionId := hended.progresses.executionId.symm
  have hjobId := (jobId_of_progresses hended.progresses).1
  have hprioractive : (ExecutionRow.mk e (some o.outcome)).Active → prior.Active :=
    active_of_progresses hended.progresses
  have hset : outcomeRow row o.transition o.outcome.val.occurredAt ∈ db'.jobs := by
    rw [hended.changed.jobs, Table.mem_set]
    left
    refine ⟨rfl, row, hended.changed.mem, rfl⟩
  constructor
  · intro row' hrow' hactive
    rw [hended.executions, Table.mem_set] at hrow'
    obtain ⟨rfl, -⟩ | ⟨hrow', hne⟩ := hrow'
    · refine ⟨_, hset, hended.jobId, ?_⟩
      have hphase : e.val.phase = .recoveryRequired ∧
          o.outcome.val.kind.jobState = .recoveryRequired := by
        have hnot := hactive.2
        rw [hended.phase] at hnot ⊢
        cases hkind : o.outcome.val.kind with
        | completed => simp [hkind, MachineOutcomeKind.phase] at hnot
        | recoveryRequired => simp [MachineOutcomeKind.phase, MachineOutcomeKind.jobState]
      rw [if_neg (fun hboth => hboth.2 hphase.1)]
      exact hended.state.trans hphase.2
    · -- Nobody else owns the machine.
      have hlast := h.last prior hended.mem hprior
      rw [h.last row' hrow' hactive, Option.some.injEq] at hlast
      rw [hlast] at hne
      apply absurd hid hne
  · intro row' hrow' hphase
    rw [hended.executions, Table.mem_set] at hrow'
    obtain ⟨rfl, -⟩ | ⟨hrow', -⟩ := hrow'
    · apply Option.some_ne_none
    · apply h.completed row' hrow' hphase
  · intro row' hrow' o' ho'
    rw [hended.executions, Table.mem_set] at hrow'
    obtain ⟨rfl, -⟩ | ⟨hrow', -⟩ := hrow'
    · cases ho'
      apply hended.revision.le
    · apply h.outcome row' hrow' o' ho'
  · apply last_set hended.mem hid hprioractive hended.executions h.last
  · intro job hjob hkind hdone
    rw [hended.changed.jobs, Table.mem_set] at hjob
    rw [lastExecution_set hended.mem hid hjobId hended.executions]
    obtain ⟨rfl, -⟩ | ⟨hjob, -⟩ := hjob
    · have hlast : db.lastExecution row.jobId = some prior := by
        apply getLast?_filter (h.last prior hended.mem hprior)
        simp [hended.jobId, hjobId]
      have hrowId : (outcomeRow row o.transition o.outcome.val.occurredAt).jobId = row.jobId := rfl
      rw [hrowId, hlast]
      refine ⟨_, rfl, ?_⟩
      rw [replaced, if_pos hid]
      have hstate : o.outcome.val.kind.jobState = .completed := by
        rw [← hended.state]
        apply hdone
      rw [hended.phase]
      cases hoKind : o.outcome.val.kind with
      | completed => rfl
      | recoveryRequired => simp [hoKind, MachineOutcomeKind.jobState] at hstate
    · obtain ⟨row', hlast, hphase⟩ := h.drawn job hjob hkind hdone
      rw [hlast]
      refine ⟨_, rfl, ?_⟩
      unfold replaced
      split
      · next hkey =>
          have hmem : row' ∈ db.executions :=
            List.mem_of_mem_filter (List.mem_of_getLast? hlast)
          obtain rfl : row' = prior := Table.eq_of_key_eq hmem hended.mem (hkey.trans hid.symm)
          apply absurd hphase hprior.2
      · apply hphase

/-! ### Writes of the chain -/

/-- A job is not changed under the execution that draws it. -/
theorem Agrees.of_advanced (h : Agrees db) {row row' : JobRecord.Fields} {event : JobEvent}
    (hallowed : allowedTransition row.state row'.state (OfflineJobChain.blockerCode row) row.kind
      = true)
    (hadvanced : Advanced db row row' event db') :
  Agrees db'
  := by
  have hchanged := hadvanced.changed
  constructor
  · intro a ha hactive
    rw [hadvanced.executions] at ha
    obtain ⟨job, hjob, hagrees⟩ := h.job a ha hactive
    refine ⟨job, ?_, hagrees⟩
    rw [hchanged.jobs, Table.mem_set]
    right
    use hjob
    intro hkey
    obtain rfl : job = row := Table.eq_of_key_eq hjob hchanged.mem (hkey.trans hchanged.jobId)
    obtain hstate | hstate := hagrees.state
    · rw [hstate] at hallowed
      obtain ⟨-, hcancelled⟩ := allowedTransition_readyToRun hallowed
      apply hadvanced.cancelled hcancelled a ha hagrees.1.symm hactive
    · rw [hstate, allowedTransition_recoveryRequired] at hallowed
      cases hallowed
  · rw [hadvanced.executions]
    apply h.completed
  · rw [hadvanced.executions]
    apply h.outcome
  · rw [hadvanced.executions]
    apply h.last
  · intro job hjob hkind hdone
    unfold lastExecution
    rw [hadvanced.executions]
    rw [hchanged.jobs, Table.mem_set] at hjob
    obtain ⟨rfl, -⟩ | ⟨hjob, -⟩ := hjob
    · rw [hdone] at hallowed
      rw [hchanged.kind, allowedTransition_completed hallowed] at hkind
      cases hkind
    · apply h.drawn job hjob hkind hdone

/-- A job that is stored waits for the chain. -/
theorem Agrees.of_stored (h : Agrees db) {row : JobRecord.Fields} {event : JobEvent}
    (hstored : Stored db row event db') :
  Agrees db'
  := by
  constructor
  · intro a ha hactive
    rw [hstored.executions] at ha
    obtain ⟨job, hjob, hagrees⟩ := h.job a ha hactive
    refine ⟨job, (Table.mem_of_insert? hstored.jobs).mpr (.inl hjob), hagrees⟩
  · rw [hstored.executions]
    apply h.completed
  · rw [hstored.executions]
    apply h.outcome
  · rw [hstored.executions]
    apply h.last
  · intro job hjob hkind hdone
    unfold lastExecution
    rw [hstored.executions]
    obtain hjob | rfl := (Table.mem_of_insert? hstored.jobs).mp hjob
    · apply h.drawn job hjob hkind hdone
    · rw [hstored.state] at hdone
      cases hdone

/-- Every write keeps the agreement. -/
theorem Agrees.of_write (h : Agrees db) (hwrite : Write db db') : Agrees db' := by
  cases hwrite with
  | machine outcome effect =>
      cases effect with
      | quiet quiet executions => apply h.of_same quiet.jobs executions
      | inserted e quiet phase authority owner table =>
          apply h.of_inserted quiet.jobs phase authority owner table
      | kept prior e quiet kept completed recovery =>
          apply h.of_kept quiet.jobs kept completed recovery
      | ended prior e o row outcome_eq ended => apply h.of_ended ended
  | advanced row row' event allowed advanced => apply h.of_advanced allowed advanced
  | stored row event stored => apply h.of_stored stored

/-! ### Outcomes are left on both sides -/

/-- The execution has the outcome. -/
def HasOutcome (db : Database) (executionId : String) (o : MachineOutcome) : Prop :=
  ∃ row ∈ db.executions, row.executionId = executionId ∧ row.outcome = some o

/-- The outcome is left on the execution, and on the job with its event. -/
structure OutcomeLeft (db : Database) (o : JobOutcome) : Prop where
  execution : db.HasOutcome o.outcome.val.executionId o.outcome
  event : o.event ∈ db.jobEvents
  job : ∃ job ∈ db.jobs, job.jobId = o.event.val.jobId ∧ o.event.val.jobRevision ≤ job.revision

variable {outcome : Option JobOutcome}

/-- An execution that has an outcome keeps it. -/
theorem HasOutcome.of_effect (h : Agrees db) (heffect : Effect outcome db db') {id : String}
    {o : MachineOutcome} (ho : db.HasOutcome id o) :
  db'.HasOutcome id o
  := by
  obtain ⟨row, hrow, hid, houtcome⟩ := ho
  cases heffect with
  | quiet quiet executions =>
      rw [← executions] at hrow
      use row
  | inserted e quiet phase authority owner table =>
      use row, (Table.mem_of_insert? table).mpr (.inl hrow)
  | kept prior e quiet kept completed recovery =>
      by_cases hkey : row.executionId = e.val.executionId
      · obtain rfl : row = prior := by
          apply Table.eq_of_key_eq hrow kept.mem
          exact hkey.trans kept.progresses.executionId
        refine ⟨⟨e, row.outcome⟩, ?_, hkey.symm.trans hid, houtcome⟩
        rw [kept.executions, Table.mem_set]
        left
        refine ⟨rfl, row, hrow, hkey⟩
      · refine ⟨row, ?_, hid, houtcome⟩
        rw [kept.executions, Table.mem_set]
        right
        refine ⟨hrow, hkey⟩
  | ended prior e o' job outcome_eq ended =>
      refine ⟨row, ?_, hid, houtcome⟩
      rw [ended.executions, Table.mem_set]
      right
      use hrow
      intro hkey
      -- The execution that ends has no outcome yet.
      obtain rfl : row = prior := by
        apply Table.eq_of_key_eq hrow ended.mem
        exact hkey.trans ended.progresses.executionId
      have hfresh := ended.fresh (by rw [houtcome]; apply Option.some_ne_none)
      have hle := h.outcome row hrow o'.outcome hfresh
      have hrevision := ended.revision
      have hnext := ended.progresses.revision
      omega

/-- Without an outcome, no job changes and no execution gets an outcome. -/
theorem unchanged_of_effect (heffect : Effect none db db') :
  db'.jobs = db.jobs ∧ ∀ id o, db'.HasOutcome id o → db.HasOutcome id o
  := by
  cases heffect with
  | quiet quiet executions =>
      use quiet.jobs
      rintro id o ⟨row, hrow, hid, houtcome⟩
      rw [executions] at hrow
      use row
  | inserted e quiet phase authority owner table =>
      use quiet.jobs
      rintro id o ⟨row, hrow, hid, houtcome⟩
      obtain hrow | rfl := (Table.mem_of_insert? table).mp hrow
      · use row
      · cases houtcome
  | kept prior e quiet kept completed recovery =>
      use quiet.jobs
      rintro id o ⟨row, hrow, hid, houtcome⟩
      rw [kept.executions, Table.mem_set] at hrow
      obtain ⟨rfl, -⟩ | ⟨hrow, -⟩ := hrow
      · refine ⟨prior, kept.mem, ?_, houtcome⟩
        exact kept.progresses.executionId.symm.trans hid
      · use row
  | ended prior e o row outcome_eq ended => cases outcome_eq

/-- The events of the jobs are kept. -/
theorem jobEvents_of_effect (heffect : Effect outcome db db') {event : JobEvent}
    (hevent : event ∈ db.jobEvents) :
  event ∈ db'.jobEvents
  := by
  cases heffect with
  | quiet quiet executions =>
      rw [quiet.jobEvents]
      apply hevent
  | inserted e quiet phase authority owner table =>
      rw [quiet.jobEvents]
      apply hevent
  | kept prior e quiet kept completed recovery =>
      rw [quiet.jobEvents]
      apply hevent
  | ended prior e o row outcome_eq ended =>
      apply (Table.mem_of_insert? ended.changed.logged.jobEvents).mpr
      left
      apply hevent

/-- An outcome that is left stays. -/
theorem OutcomeLeft.of_effect (h : Agrees db) (heffect : Effect outcome db db') {o : JobOutcome}
    (ho : OutcomeLeft db o) :
  OutcomeLeft db' o
  := by
  constructor
  · apply ho.execution.of_effect h heffect
  · apply jobEvents_of_effect heffect ho.event
  · obtain ⟨job, hjob, hid, hle⟩ := ho.job
    obtain ⟨job', hjob', hid', hgrows, -⟩ := (Write.machine outcome heffect).grows job hjob
    refine ⟨job', hjob', hid'.trans hid, ?_⟩
    rcases hgrows with rfl | hlt
    · apply hle
    · omega

/-- An execution that ends leaves its outcome. -/
theorem Ended.outcomeLeft {prior : ExecutionRow} {e : MachineExecution} {o : JobOutcome}
    {row : JobRecord.Fields} (h : Ended db prior e o row db') :
  OutcomeLeft db' o
  := by
  have hchanged := h.changed
  constructor
  · refine ⟨⟨e, some o.outcome⟩, ?_, h.executionId.symm, rfl⟩
    rw [h.executions, Table.mem_set]
    left
    refine ⟨rfl, prior, h.mem, h.progresses.executionId.symm⟩
  · apply (Table.mem_of_insert? hchanged.logged.jobEvents).mpr
    right
    rfl
  · refine ⟨outcomeRow row o.transition o.outcome.val.occurredAt, ?_, ?_, ?_⟩
    · rw [hchanged.jobs, Table.mem_set]
      left
      refine ⟨rfl, row, hchanged.mem, rfl⟩
    · exact hchanged.eventJob.symm
    · rw [hchanged.eventRevision, hchanged.revision]

/-- What the effects of a call keep. -/
theorem agrees_of_effects (h : Agrees db) (heffects : Relation.ReflTransGen (Effect outcome) db db') :
  Agrees db' ∧ (∀ o, OutcomeLeft db o → OutcomeLeft db' o) ∧
    ∀ id o, db.HasOutcome id o → db'.HasOutcome id o
  := by
  induction heffects with
  | refl => refine ⟨h, fun _ ho => ho, fun _ _ ho => ho⟩
  | tail _ hlast ih =>
      obtain ⟨hagrees, hleft, hhas⟩ := ih
      refine ⟨hagrees.of_write (.machine _ hlast), ?_, ?_⟩
      · intro o ho
        apply (hleft o ho).of_effect hagrees hlast
      · intro id o ho
        apply (hhas id o ho).of_effect hagrees hlast

/-- Calls without an outcome leave the jobs and the outcomes. -/
theorem unchanged_of_effects (heffects : Relation.ReflTransGen (Effect none) db db') :
  db'.jobs = db.jobs ∧ ∀ id o, db'.HasOutcome id o → db.HasOutcome id o
  := by
  induction heffects with
  | refl => refine ⟨rfl, fun _ _ ho => ho⟩
  | tail _ hlast ih =>
      obtain ⟨hjobs, hhas⟩ := unchanged_of_effect hlast
      refine ⟨hjobs.trans ih.1, ?_⟩
      intro id o ho
      apply ih.2 id o (hhas id o ho)

/-- The calls of a transaction leave every outcome they have on both sides. -/
theorem outcomeLeft_of_calls {calls : List Call} (hcalls : ∀ c ∈ calls, c.Coordinated)
    (h : calls.foldlM Call.apply db = .ok db') (hagrees : Agrees db) {c : Call} (hc : c ∈ calls)
    {o : JobOutcome} (ho : c.outcome = some o) :
  OutcomeLeft db' o
  := by
  induction calls generalizing db with
  | nil => cases hc
  | cons first calls ih =>
      rw [List.foldlM_cons, Except.bind_eq_ok_iff] at h
      obtain ⟨db₁, hfirst, hrest⟩ := h
      have hcalls' : ∀ c ∈ calls, c.Coordinated := fun c hc =>
        hcalls c (List.mem_cons_of_mem _ hc)
      obtain ⟨hagrees₁, -⟩ := agrees_of_effects hagrees
        (effects_of_call hfirst (hcalls first List.mem_cons_self))
      obtain rfl | hc := List.mem_cons.mp hc
      · obtain ⟨prior, e, row, hended⟩ := ended_of_call hfirst ho
        -- What the call left, the rest of the transaction keeps.
        have hboth : Agrees db' ∧ OutcomeLeft db' o := by
          apply foldlM_apply (P := fun a => Agrees a ∧ OutcomeLeft a o) _ hrest
            ⟨hagrees₁, hended.outcomeLeft⟩
          intro next hnext a b hcall hab
          obtain ⟨hb, hleft, -⟩ := agrees_of_effects hab.1 (effects_of_call hcall (hcalls' next hnext))
          refine ⟨hb, hleft o hab.2⟩
        apply hboth.2
      · apply ih hcalls' hrest hagrees₁ hc

/-- A transaction without an outcome leaves the jobs and the outcomes. -/
theorem unchanged_of_calls {calls : List Call} (hcalls : ∀ c ∈ calls, c.Coordinated)
    (h : calls.foldlM Call.apply db = .ok db') (hagrees : Agrees db)
    (hnone : ∀ c ∈ calls, c.outcome = none) :
  db'.jobs = db.jobs ∧ ∀ id o, db'.HasOutcome id o ↔ db.HasOutcome id o
  := by
  induction calls generalizing db with
  | nil =>
      cases h
      refine ⟨rfl, fun _ _ => Iff.rfl⟩
  | cons first calls ih =>
      rw [List.foldlM_cons, Except.bind_eq_ok_iff] at h
      obtain ⟨db₁, hfirst, hrest⟩ := h
      have heffects := effects_of_call hfirst (hcalls first List.mem_cons_self)
      rw [hnone first List.mem_cons_self] at heffects
      obtain ⟨hagrees₁, -, hkept⟩ := agrees_of_effects hagrees heffects
      obtain ⟨hjobs, hhas⟩ := unchanged_of_effects heffects
      obtain ⟨hjobs', hhas'⟩ := ih (fun c hc => hcalls c (List.mem_cons_of_mem _ hc)) hrest hagrees₁
        (fun c hc => hnone c (List.mem_cons_of_mem _ hc))
      refine ⟨hjobs'.trans hjobs, ?_⟩
      intro id o
      rw [hhas' id o]
      exact ⟨hhas id o, hkept id o⟩

end Database

namespace World

open Database

variable {w : World}

/-! ### Every committed state -/

/-- How the jobs agree with the executions in a committed state. -/
structure JobExecutionAgreement (db : Database) : Prop where
  /-- The job of an execution without predecessor is ready at the revision at which it was
  prepared, until both need recovery. -/
  initial : ∀ row ∈ db.executions, row.Active → row.execution.val.predecessorExecutionId = none →
    ∃ job ∈ db.jobs, job.jobId = row.execution.val.jobId ∧
      ((row.execution.val.phase ≠ .recoveryRequired ∧ job.state = .readyToRun ∧
          job.revision = row.execution.val.readyRevision) ∨
        (row.execution.val.phase = .recoveryRequired ∧ job.state = .recoveryRequired))
  /-- The job of a successor needs recovery. -/
  successor : ∀ row ∈ db.executions, row.Active →
    row.execution.val.predecessorExecutionId ≠ none →
    ∃ job ∈ db.jobs, job.jobId = row.execution.val.jobId ∧ job.state = .recoveryRequired
  /-- A drawing is completed only by its last execution. -/
  completed : ∀ job ∈ db.jobs, job.kind = .offlineWorkflow → job.state = .completed →
    ∃ row, db.lastExecution job.jobId = some row ∧ row.execution.val.phase = .completed
  /-- A job that an execution draws is not cancelled. -/
  cancelled : ∀ job ∈ db.jobs, job.state = .cancelled → ∀ row ∈ db.executions,
    row.execution.val.jobId = job.jobId → ¬ row.Active

/-- What the relation says of a committed state. -/
theorem jobExecutionAgreement_of_agrees {db : Database} (h : Agrees db) :
  JobExecutionAgreement db
  := by
  constructor
  · intro row hrow hactive hnone
    obtain ⟨job, hjob, hid, hstate⟩ := h.job row hrow hactive
    refine ⟨job, hjob, hid, ?_⟩
    by_cases hphase : row.execution.val.phase = .recoveryRequired
    · right
      rw [if_neg (fun hboth => hboth.2 hphase)] at hstate
      refine ⟨hphase, hstate⟩
    · left
      rw [if_pos ⟨hnone, hphase⟩] at hstate
      refine ⟨hphase, hstate⟩
  · intro row hrow hactive hsome
    obtain ⟨job, hjob, hid, hstate⟩ := h.job row hrow hactive
    rw [if_neg (fun hboth => hsome hboth.1)] at hstate
    refine ⟨job, hjob, hid, hstate⟩
  · apply h.drawn
  · intro job hjob hcancelled row hrow hid hactive
    obtain ⟨drawn, hdrawn, hagrees⟩ := h.job row hrow hactive
    obtain rfl : drawn = job := Table.eq_of_key_eq hdrawn hjob (hagrees.1.trans hid)
    obtain hstate | hstate := hagrees.state <;> rw [hstate] at hcancelled <;> cases hcancelled

/-- In every world that a run reaches, the jobs agree with the executions. -/
theorem Reachable.agrees (h : Reachable w) : Agrees w.db.tables := by
  have hempty : Agrees empty.db.tables := agrees_empty rfl rfl
  exact (h.keeps hempty fun hwrite ha => ha.of_write hwrite).2

/-- A transaction is rolled back, or all its calls are committed. -/
theorem run_eq_or (tx : Transaction) (db : Database) :
  tx.run db = db ∨ tx.calls.foldlM Call.apply db = .ok (tx.run db)
  := by
  unfold Transaction.run
  split
  · left
    rfl
  · next db' hrun =>
      split
      · right
        apply hrun
      · left
        rfl

/-- In every world that the two repositories reach together, the jobs agree with the
executions. A transaction of the coordinator leaves its outcomes on the executions and on
the jobs, or it leaves the database as it was; without an outcome it changes no job and no
execution gets an outcome. -/
theorem drawings_agree_with_executions (h : Reachable w) :
  JobExecutionAgreement w.db.tables ∧
    ∀ tx : Transaction, (∀ c ∈ tx.calls, c.Coordinated) →
      tx.run w.db.tables = w.db.tables ∨
        ((∀ c ∈ tx.calls, ∀ o, c.outcome = some o → OutcomeLeft (tx.run w.db.tables) o) ∧
          ((∀ c ∈ tx.calls, c.outcome = none) →
            (tx.run w.db.tables).jobs = w.db.tables.jobs ∧
              ∀ id o, (tx.run w.db.tables).HasOutcome id o ↔ w.db.tables.HasOutcome id o))
  := by
  have hagrees := h.agrees
  use jobExecutionAgreement_of_agrees hagrees
  intro tx hcalls
  obtain hsame | hrun := run_eq_or tx w.db.tables
  · left
    apply hsame
  · right
    constructor
    · intro c hc o ho
      apply outcomeLeft_of_calls hcalls hrun hagrees hc ho
    · intro hnone
      apply unchanged_of_calls hcalls hrun hagrees hnone

/-! ### Sample worlds -/

/-- Change the job that was copied last. -/
def advance (w : World) (state : JobState) (c : OfflineJobChain.Change)
    (commit : OfflineJobChain.Commit) : World :=
  match w.copies with
  | [] => w
  | job :: _ => w.after (OfflineJobChain.transition w.db job state c commit)

/-- Changing the job that was copied last is a step. -/
theorem Reachable.advance (h : Reachable w) (state : JobState) (c : OfflineJobChain.Change)
    (commit : OfflineJobChain.Commit) :
  Reachable (w.advance state c commit)
  := by
  unfold World.advance
  split
  · apply h
  · next job copies hcopies =>
      apply h.tail
      apply Step.transition
      rw [hcopies]
      apply List.mem_cons_self

/-- What a sample transaction gets from its environment. -/
def sampleCommit (n : Nat) : OfflineJobChain.Commit :=
  ⟨String.ofList (List.replicate (n + 1) 'e'), 0, 0, 0, true⟩

/-- A sample change, made by the service. -/
def sampleChange (eventType : String) (snapshot : Option ReadyToRunSnapshot) :
    OfflineJobChain.Change :=
  { eventType := eventType, requestId := none, requester := .service, readySnapshot := snapshot }

/-- The check of a program, from the request to its end. -/
def checkedWorld : World :=
  ((empty.after (OfflineJobChain.submit empty.db "job" .gcodeCheck "check" ""
    sampleSnapshot.val.config 0 (sampleChange "gcode_check.queued" none) (sampleCommit 0))
    ).advance .validatingGcode (sampleChange "gcode_check.validating" none) (sampleCommit 1)
    ).advance .completed (sampleChange "gcode_check.completed" none) (sampleCommit 2)

/-- The check of a program completes its job, and there is no execution. -/
theorem checked_without_execution :
  ∃ w : World, Reachable w ∧ ∃ job ∈ w.db.tables.jobs, job.state = .completed ∧
    w.db.tables.lastExecution job.jobId = none
  := by
  refine ⟨checkedWorld, ?_, ?_⟩
  · apply Reachable.advance
    apply Reachable.advance
    apply Relation.ReflTransGen.single
    apply Step.submit
  · have hjob : ∃ job ∈ checkedWorld.db.tables.jobs.rows, job.state = .completed ∧
        checkedWorld.db.tables.lastExecution job.jobId = none := by
      decide +kernel
    apply hjob

/-- The snapshot of the sample drawing. -/
def drawnSnapshot : ReadyToRunSnapshot :=
  ⟨{ sampleSnapshot.val with jobRevision := 7 }, by decide +kernel⟩

/-- The steps of the sample drawing. -/
def drawingSteps : List (JobState × Option ReadyToRunSnapshot) :=
  [ (.preparingImage, none), (.imageReady, none), (.planningPaths, none), (.pathPlanReady, none),
    (.buildingGcode, none), (.validatingGcode, none), (.readyToRun, some drawnSnapshot) ]

/-- The sample drawing, from the request to the program that is ready to run. -/
def readyWorld : World :=
  drawingSteps.zipIdx.foldl
    (fun w step =>
      w.advance step.1.1 (sampleChange "job.advanced" step.1.2) (sampleCommit (step.2 + 1)))
    (empty.after (OfflineJobChain.submit empty.db "job" .offlineWorkflow "drawing" ""
      sampleSnapshot.val.config 0 (sampleChange "job.queued" none) (sampleCommit 0)))

/-- The execution that draws the sample. -/
def drawnExecution : MachineExecution :=
  ⟨{ sampleFields "a" "session-a" with readyRevision := 7 }, by
    apply MachineExecution.Fields.postInit_eq_ok_iff.mpr
    constructor
    · have hfields : (sampleFields "a" "session-a").checkFields = .ok () := by
        apply checkFields_sample (i := "a") (e := "session-a") (p := none) <;> decide
      apply hfields
    · decide⟩

/-- The transaction that prepares the execution. -/
def prepareDrawing : Transaction :=
  ⟨[.createExecution drawnExecution (eventAt 0 drawnExecution) (auditAt 0 drawnExecution)], true⟩

/-- The sample drawing is ready in a world that a run reaches. -/
theorem reachable_readyWorld : Reachable readyWorld := by
  unfold readyWorld
  have hsubmitted : Reachable (empty.after (OfflineJobChain.submit empty.db "job" .offlineWorkflow
      "drawing" "" sampleSnapshot.val.config 0 (sampleChange "job.queued" none)
      (sampleCommit 0))) := by
    apply Relation.ReflTransGen.single
    apply Step.submit
  generalize drawingSteps.zipIdx = steps
  generalize empty.after _ = w at hsubmitted ⊢
  induction steps generalizing w with
  | nil => apply hsubmitted
  | cons step steps ih =>
      apply ih
      apply hsubmitted.advance

/-- The execution of the sample drawing owns the machine, and agrees with its job. -/
theorem sample_drawing_agrees :
  (∃ row ∈ (prepareDrawing.run readyWorld.db.tables).executions, row.Active) ∧
    JobExecutionAgreement (prepareDrawing.run readyWorld.db.tables)
  := by
  have hcalls : ∀ c ∈ prepareDrawing.calls, c.Coordinated := by
    intro c hc
    rw [List.mem_singleton.mp hc]
    apply Call.Coordinated.createExecution
  have hreachable : Reachable (readyWorld.afterMachine prepareDrawing) :=
    reachable_readyWorld.tail (Step.machine prepareDrawing hcalls)
  have hactive : ∃ row ∈ (prepareDrawing.run readyWorld.db.tables).executions.rows,
      row.Active := by
    decide +kernel
  refine ⟨hactive, (drawings_agree_with_executions hreachable).1⟩

end World

end DrawingMachine
