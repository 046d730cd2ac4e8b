import DrawingMachine.Application.OfflineJobChain

/-!
# Driving a job

Where the loops over the steps of a job end. The machine only changes jobs that have a
snapshot, and a job on its way does not have one; a step of such a job brings it into a state
that comes later on its way. The loops do not stop at a job that needs recovery, which no step
changes.
-/

namespace DrawingMachine

/-! ### Jobs on their way -/

/-- A job on its way does not have a snapshot. -/
theorem JobRecord.readySnapshot_eq_none (job : JobRecord) (h : job.val.state ∉ terminalStates) :
  job.val.readySnapshot = none
  := by
  have hjob := job.property
  simp only [JobRecord.Fields.postInit, JobRecord.Fields.checkStatePayloads,
    validatedStatePayloads, Except.unit_bind_eq_ok_iff, rejectIf_eq_ok_iff] at hjob
  obtain ⟨-, -, -, -, ⟨-, -, -, hsnapshot⟩, -⟩ := hjob
  simp only [terminalStates, List.mem_cons, List.not_mem_nil, or_false, not_or] at h
  obtain ⟨hready, -, -, hcancelled, hrecovery, hcompleted⟩ := h
  by_contra hne
  apply hsnapshot
  right
  refine ⟨?_, hne⟩
  simp [hready, hcancelled, hrecovery, hcompleted]

/-- A job is in a state that its kind has. -/
theorem JobRecord.jobStates_eq_true (job : JobRecord) :
  jobStates job.val.kind job.val.state = true
  := by
  have hjob := job.property
  simp only [JobRecord.Fields.postInit, Except.unit_bind_eq_ok_iff, rejectIf_eq_ok_iff] at hjob
  obtain ⟨-, -, -, hkind, -⟩ := hjob
  simpa using hkind

/-- How many steps a job on its way still makes at most. -/
def JobState.remaining : JobState → Nat
  | .queued => 7
  | .preparingImage => 6
  | .imageReady => 5
  | .planningPaths => 4
  | .pathPlanReady => 3
  | .buildingGcode => 2
  | .validatingGcode => 1
  | _ => 0

/-- An allowed change leaves a job on its way fewer steps. -/
theorem remaining_lt {prior result : JobState} {code : Option String} {kind : JobKind}
    (h : allowedTransition prior result code kind = true) (hprior : prior ∉ terminalStates) :
  result.remaining < prior.remaining
  := by
  revert h hprior
  cases kind <;> cases prior <;> cases result <;>
    simp [allowedTransition, jobStates, terminalStates, failClosedResults, offlineProgression,
      gcodeCheckProgression, JobState.remaining]

/-- No allowed change makes a job need recovery. -/
theorem ne_recoveryRequired {prior result : JobState} {code : Option String} {kind : JobKind}
    (h : allowedTransition prior result code kind = true) :
  result ≠ .recoveryRequired
  := by
  rintro rfl
  revert h
  cases kind <;> cases prior <;>
    simp [allowedTransition, jobStates, terminalStates, failClosedResults, offlineProgression]

/-! ### What the machine does to jobs -/

namespace Database

variable {db db' : Database}

/-- A call that leaves an outcome leaves it on a job with a snapshot. -/
theorem snapshot_of_call {c : Call} {o : JobOutcome} (h : c.apply db = .ok db')
    (hc : c.outcome = some o) :
  ∃ row, OutcomeJob db o row
  := by
  cases c with
  | commitMachineOutcome n e o' event audit session =>
      cases hc
      simp only [Call.apply, commitMachineOutcome, Except.bind_eq_ok_iff,
        Except.exists_unit_iff] at h
      obtain ⟨-, -, -, -, hjob, -⟩ := h
      apply outcomeJob_of_checkOutcomeJob hjob
  | reconcileRestart n e event audit outcome =>
      cases hc
      simp only [Call.apply, reconcileRestart, Except.bind_eq_ok_iff, Except.exists_unit_iff,
        checkSome_eq_ok_iff] at h
      obtain ⟨-, -, -, -, -, houtcome, -⟩ := h
      apply outcomeJob_of_checkRestartJob (houtcome o rfl).2.1
  | _ => cases hc

/-- A call of the machine leaves every job or gives it a later revision, and leaves the jobs
without a snapshot as they are. -/
theorem grows_of_call {c : Call} (h : c.apply db = .ok db') :
  Grows db db' ∧ ∀ row ∈ db.jobs, row.readySnapshot = none → row ∈ db'.jobs
  := by
  cases hc : c.outcome with
  | none =>
      have hquiet := quiet_of_call h hc
      use grows_of_quiet hquiet
      intro row hrow _
      rw [hquiet.jobs]
      exact hrow
  | some o =>
      obtain ⟨prior, e, row, hended⟩ := ended_of_call h hc
      obtain ⟨found, hfound⟩ := snapshot_of_call h hc
      obtain rfl : row = found := by
        apply Table.eq_of_key_eq hended.changed.mem hfound.mem
        exact hended.changed.eventJob.symm.trans hfound.eventJob
      use grows_of_changed hended.changed
      intro a ha hnone
      rw [hended.changed.jobs, Table.mem_set]
      right
      use ha
      intro hid
      obtain rfl := Table.eq_of_key_eq ha hfound.mem (hid.trans hended.changed.jobId)
      rw [hfound.snapshot] at hnone
      cases hnone

/-- The same of a transaction. -/
theorem grows_of_run (tx : Transaction) (db : Database) :
  Grows db (tx.run db) ∧ ∀ row ∈ db.jobs, row.readySnapshot = none → row ∈ (tx.run db).jobs
  := by
  unfold Transaction.run
  split
  · use Grows.refl db
    intro row hrow _
    exact hrow
  · next db' hrun =>
      split
      · apply foldlM_apply
          (P := fun a => Grows db a ∧ ∀ row ∈ db.jobs, row.readySnapshot = none → row ∈ a.jobs) _
          hrun
        · use Grows.refl db
          intro row hrow _
          exact hrow
        · rintro c - a b hcall ⟨hgrows, hkeeps⟩
          obtain ⟨hgrows', hkeeps'⟩ := grows_of_call hcall
          use hgrows.trans hgrows'
          intro row hrow hnone
          apply hkeeps' row (hkeeps row hrow hnone) hnone
      · use Grows.refl db
        intro row hrow _
        exact hrow

end Database

namespace OfflineJobChain

open Database Interaction

variable {σ α : Type} {w : Surroundings σ} {job job' : JobRecord} {P : Database → Prop}

/-! ### What stays true while the machine commits -/

/-- The machine does not change whether it is true of the database. -/
def Stable (P : Database → Prop) : Prop := ∀ tx db, P db → P (Transaction.run tx db)

/-- The job is stored as it is. -/
def Holds (job : JobRecord) (db : Database) : Prop := db.jobs.get? job.val.jobId = some job.val

/-- A later revision of the job is stored. -/
def HoldsLater (job : JobRecord) (db : Database) : Prop :=
  ∃ row, db.jobs.get? job.val.jobId = some row ∧ job.val.revision < row.revision

/-- The job is stored as it is, unless it has stopped. -/
def HoldsOnWay (job : JobRecord) (db : Database) : Prop :=
  job.val.state ∉ terminalStates → Holds job db

/-- The machine leaves a job on its way. -/
theorem stable_holds (h : job.val.state ∉ terminalStates) : Stable (Holds job) := by
  intro tx db hdb
  obtain ⟨hmem, hid⟩ := Table.get?_eq_some_iff.mp hdb
  apply Table.get?_eq_some_iff.mpr
  use (grows_of_run tx db).2 _ hmem (job.readySnapshot_eq_none h)

/-- The machine leaves a job unless it has stopped. -/
theorem stable_holdsOnWay : Stable (HoldsOnWay job) := by
  intro tx db hdb h
  apply stable_holds h tx db (hdb h)

/-- The machine only adds revisions. -/
theorem stable_holdsLater : Stable (HoldsLater job) := by
  rintro tx db ⟨row, hrow, hlt⟩
  obtain ⟨hmem, hid⟩ := Table.get?_eq_some_iff.mp hrow
  obtain ⟨row', hmem', hid', hrevision, -⟩ := (grows_of_run tx db).1 row hmem
  use row', Table.get?_eq_some_iff.mpr ⟨hmem', hid'.trans hid⟩
  rcases hrevision with rfl | hlt'
  · exact hlt
  · omega

/-- What a step makes of a job on its way: a job that has fewer steps before it, stored unless
it has stopped, and at a later revision. -/
structure Advances (job job' : JobRecord) (db : Database) : Prop where
  jobId : job'.val.jobId = job.val.jobId
  remaining : job'.val.state.remaining < job.val.state.remaining
  recovery : job'.val.state ≠ .recoveryRequired
  holds : HoldsOnWay job' db
  later : HoldsLater job db

/-- What a step makes of a job stays true. -/
theorem stable_advances : Stable (Advances job job') := by
  rintro tx db ⟨hid, hremaining, hrecovery, hholds, hlater⟩
  constructor
  · exact hid
  · exact hremaining
  · exact hrecovery
  · apply stable_holdsOnWay tx db hholds
  · apply stable_holdsLater tx db hlater

/-! ### What a program keeps -/

/-- A step that returns has changed the stored revision, or has found the job in a state in
which nothing happens by itself. -/
def DriveEvent.Progresses : DriveEvent → Prop
  | .advanced read returned stored =>
      (∃ row, stored = some row ∧ read.val.revision < row.revision) ∨
        returned.val.state ∈ terminalStates
  | _ => True

/-- A program that makes of the stored jobs what it should. -/
abbrev Does (P : Database → Prop) (x : Program σ α) (Q : α → Database → Prop) : Prop :=
  Meets (fun c => P c.db.tables) x DriveEvent.Progresses fun a c => Q a c.db.tables

/-- A program that keeps what is true of the stored jobs. -/
abbrev Keeps (P : Database → Prop) (x : Program σ α) : Prop := Does P x fun _ => P

/-- A question to what surrounds the chain. -/
theorem keeps_ask (f : σ → α × σ) : Keeps P (ask f) := by
  apply Meets.perform
  intro c hc
  exact hc

/-- A question that may raise an exception. -/
theorem keeps_require (source : String) (f : σ → Option α × σ) : Keeps P (require source f) := by
  apply Meets.attempt trivial
  intro c a hc _
  exact hc

/-- A commit of the machine. -/
theorem keeps_machineTurn (hP : Stable P) : Keeps P (machineTurn w) := by
  apply Meets.perform
  intro c hc
  apply List.foldlRecOn _ _ hc
  intro db hdb tx _
  apply hP tx db hdb

/-- A value, or an error. -/
theorem keeps_checked (x : Except ErrorPayload α) : Keeps P (checked x : Program σ α) := by
  cases x with
  | ok a =>
      apply Meets.pure
      intro c hc
      exact hc
  | error e => apply Meets.escape trivial

/-- A returned value. -/
theorem does_pure (a : α) {Q : α → Database → Prop} : Does (Q a) (pure a : Program σ α) Q := by
  apply Meets.pure
  intro c hc
  exact hc

/-- A returned value keeps what is true. -/
theorem keeps_pure (a : α) : Keeps P (pure a : Program σ α) := does_pure (Q := fun _ => P) a

/-- A look at the database. -/
theorem does_reading {f : SharedDatabase → α} {Q : α → Database → Prop}
    (hQ : ∀ a, Stable (Q a)) (h : ∀ db, P db.tables → Q (f db) db.tables) :
  Does P (reading w f) Q
  := by
  apply Meets.bind (Q := fun a c => Q a c.db.tables)
  · apply Meets.perform
    intro c hc
    apply h c.db hc
  · intro a
    apply Meets.bind (keeps_machineTurn (hQ a))
    intro _
    apply does_pure

/-- A look at the database keeps what is true. -/
theorem keeps_reading (hP : Stable P) {f : SharedDatabase → α} : Keeps P (reading w f) :=
  does_reading (fun _ => hP) fun _ hdb => hdb

/-- A job that was found is built as it was stored. -/
theorem does_build {row : JobRecord.Fields} :
  Does (fun db => some row = some job.val ∧ P db) (checked (JobRecord.build row) : Program σ _)
    fun a db => a = job ∧ P db
  := by
  cases hrow : JobRecord.build row with
  | error e => apply Meets.escape trivial
  | ok a =>
      apply Meets.pure
      rintro c ⟨hfound, hc⟩
      refine ⟨?_, hc⟩
      apply Subtype.ext
      rw [acceptIf_eq_ok_iff.mp hrow]
      apply Option.some.inj hfound

/-- A job is read as it is stored. -/
theorem does_get :
  Does (Holds job) (get w job.val.jobId) fun a db => a = job ∧ HoldsOnWay job db
  := by
  apply Meets.bind (does_reading (Q := fun found db => found = some job.val ∧ HoldsOnWay job db)
    (fun found tx db hdb => ⟨hdb.1, stable_holdsOnWay tx db hdb.2⟩) fun db hdb => ⟨hdb, fun _ => hdb⟩)
  intro found
  cases found with
  | none => apply Meets.escape trivial
  | some row => apply does_build

/-- A job on its way is read, and something is done with it. -/
theorem does_get_bind (h : job.val.state ∉ terminalStates) {f : JobRecord → Program σ α}
    {Q : α → Database → Prop} (hf : Does (Holds job) (f job) Q) :
  Does (Holds job) (get w job.val.jobId >>= f) Q
  := by
  apply Meets.bind does_get
  intro found
  by_cases hfound : found = job
  · rw [hfound]
    apply hf.strengthen
    rintro c ⟨-, hc⟩
    exact hc h
  · apply Meets.of_false
    rintro c ⟨heq, -⟩
    exact hfound heq

/-- The outcome of an attempt. -/
theorem keeps_resultOf (task : WorkerTask) (outcome : WorkerOutcome) (first : Bool) :
  Keeps P (resultOf w task outcome first)
  := by
  unfold resultOf
  split
  · apply Meets.bind (keeps_ask _)
    intro id
    apply keeps_pure
  · split
    · apply keeps_pure
    · split
      · apply Meets.escape trivial
      · split
        · apply keeps_pure
        · apply Meets.bind (keeps_require _ _)
          intro checked
          cases checked with
          | error e => apply keeps_pure
          | ok _ =>
              simp only
              split
              · apply keeps_pure
              · apply Meets.bind (keeps_require _ _)
                intro bundle
                apply keeps_pure

/-- One attempt of a task. -/
theorem keeps_attemptTask (task : WorkerTask) (first : Bool) :
  Keeps P (attemptTask w job task first)
  := by
  apply Meets.bind (keeps_require _ _)
  intro _
  apply Meets.bind (keeps_ask _)
  intro outcome
  apply Meets.bind (keeps_resultOf _ _ _)
  intro result
  apply Meets.bind (keeps_require _ _)
  intro _
  apply keeps_pure

/-- A task. -/
theorem keeps_execute (task : WorkerTask) : Keeps P (execute w job task) := by
  apply Meets.bind (keeps_attemptTask _ _)
  intro result
  cases result with
  | some result => apply keeps_pure
  | none =>
      apply Meets.bind (keeps_attemptTask _ _)
      intro result
      cases result with
      | some result => apply keeps_pure
      | none => apply Meets.escape trivial

/-- The artifacts of a result. -/
theorem keeps_bundleOf (result : WorkerResult) : Keeps P (bundleOf result : Program σ _) := by
  unfold bundleOf
  split
  · apply keeps_pure
  · apply Meets.escape trivial

/-- The input of a job. -/
theorem keeps_takeInput (hP : Stable P) (role : String) : Keeps P (takeInput w job role) := by
  apply Meets.bind (keeps_reading hP)
  intro stored
  simp only
  split
  · apply Meets.bind (keeps_require _ _)
    intro _
    apply keeps_pure
  · apply keeps_require

/-! ### What a step makes of a job -/

/-- The transaction that changes a job on its way. -/
theorem advances_of_transition {db : SharedDatabase} {state : JobState} {c : Change}
    {commit : Commit} {db' : SharedDatabase}
    (h : transition db job state c commit = .ok (job', db'))
    (hstate : job.val.state ∉ terminalStates) (hjob : Holds job db.tables) :
  Advances job job' db'.tables
  := by
  obtain ⟨hallowed, row, event, hid, -, hresult, hadvanced⟩ := advanced_of_transition h
  obtain ⟨hmem, -⟩ := Table.get?_eq_some_iff.mp hjob
  obtain rfl := Table.eq_of_key_eq hadvanced.changed.mem hmem hid
  have hstored : Holds job' db'.tables := by
    apply Table.get?_eq_some_iff.mpr
    rw [hadvanced.changed.jobs, Table.mem_set]
    refine ⟨.inl ⟨rfl, job.val, hmem, hadvanced.changed.jobId.symm⟩, rfl⟩
  constructor
  · exact hadvanced.changed.jobId
  · rw [hresult]
    apply remaining_lt hallowed hstate
  · rw [hresult]
    apply ne_recoveryRequired hallowed
  · intro _
    exact hstored
  · use job'.val
    rw [← hadvanced.changed.jobId]
    use hstored
    rw [hadvanced.changed.revision]
    omega

/-- A transaction of the chain. -/
theorem does_commitTo {f : SharedDatabase → Except StoreError (α × SharedDatabase)}
    {Q : α → Database → Prop}
    (h : ∀ db a db', f db = .ok (a, db') → P db.tables → Q a db'.tables) :
  Does P (commitTo f : Program σ α) Q
  := by
  constructor
  · intro c _ events hrun
    unfold commitTo at hrun
    split at hrun <;> cases hrun
  · intro c _ e he
    unfold commitTo at he
    split at he
    · cases he
    · cases List.mem_singleton.mp he
      trivial
  · intro c hc events a c' hdone
    unfold commitTo at hdone
    split at hdone
    · next hcommit =>
        cases hdone
        apply h _ _ _ hcommit hc
    · cases hdone

/-- A change of a job. -/
theorem advances_change (h : job.val.state ∉ terminalStates) (state : JobState) (c : Change) :
  Does (Holds job) (change w job state c) (Advances job)
  := by
  apply Meets.bind (keeps_ask _)
  intro commit
  apply Meets.bind (does_commitTo fun db a db' hcommit => advances_of_transition hcommit h)
  intro updated
  apply Meets.bind (keeps_machineTurn stable_advances)
  intro _
  apply Meets.bind (keeps_require _ _)
  intro _
  apply does_pure

/-- The failure of a job. -/
theorem advances_fail (h : job.val.state ∉ terminalStates) (code message : String) :
  Does (Holds job) (fail w job code message) (Advances job)
  := by
  apply Meets.bind (keeps_ask _)
  intro id
  apply advances_change h

/-- The cancellation of a job. -/
theorem advances_cancel (h : job.val.state ∉ terminalStates) (requestId : String)
    (requester : RequesterIdentity) :
  Does (Holds job) (cancel w job.val.jobId requestId requester) (Advances job)
  := by
  have hnot : job.val.state ∉ [JobState.cancelled, .failed, .completed] := by
    intro hmem
    apply h
    revert hmem
    cases job.val.state <;> simp [terminalStates]
  apply does_get_bind h
  rw [if_neg hnot]
  apply advances_change h

/-- The end of a worker. -/
theorem advances_finishWorker (h : job.val.state ∉ terminalStates) (result : WorkerResult)
    (state : JobState) (eventType : String) (extra : List ArtifactRef) :
  Does (Holds job) (finishWorker w job result state eventType extra) (Advances job)
  := by
  unfold finishWorker
  simp only
  split
  · apply advances_change h
  · apply Meets.bind (keeps_checked _)
    intro blocker
    apply advances_change h
  · apply Meets.bind (keeps_ask _)
    intro identity
    apply advances_change h
  · apply Meets.bind (keeps_ask _)
    intro id
    apply advances_change h
  · apply Meets.escape trivial

/-- The wait for a review. -/
theorem advances_awaitReview (h : job.val.state ∉ terminalStates) (artifacts : List ArtifactRef) :
  Does (Holds job) (awaitReview w job artifacts) (Advances job)
  := by
  apply Meets.bind (keeps_checked _)
  intro blocker
  apply advances_change h

/-- A worker whose artifacts the chain goes on with: the step ends when the worker does not
succeed. -/
theorem advances_worker (h : job.val.state ∉ terminalStates) {task : WorkerTask}
    {state : JobState} {eventType : String} {extra : List ArtifactRef}
    {next : List ArtifactRef → Program σ JobRecord}
    (hnext : ∀ artifacts, Does (Holds job) (next artifacts) (Advances job)) :
  Does (Holds job)
    (do
      let result ← execute w job task
      if result.outcome.status ≠ .succeeded then
        finishWorker w job result state eventType extra
      else do
        let bundle ← bundleOf result
        next bundle)
    (Advances job)
  := by
  apply Meets.bind (keeps_execute _)
  intro result
  simp only
  split
  · apply advances_finishWorker h
  · apply Meets.bind (keeps_bundleOf _)
    apply hnext

/-- The preparation with the help of the provider. -/
theorem advances_prepareImageEdit (h : job.val.state ∉ terminalStates)
    (prefixArtifacts : List ArtifactRef) :
  Does (Holds job) (prepareImageEdit w job prefixArtifacts) (Advances job)
  := by
  apply advances_worker h
  intro provided
  apply advances_worker h
  intro normalized
  apply advances_awaitReview h

/-- The preparation of the image. -/
theorem advances_prepareImage (h : job.val.state ∉ terminalStates) :
  Does (Holds job) (prepareImage w job) (Advances job)
  := by
  unfold prepareImage
  split
  · apply Meets.escape trivial
  · apply advances_prepareImageEdit h
  · apply advances_worker h
    intro promoted
    split
    · apply advances_awaitReview h
    · apply Meets.bind (keeps_require _ _)
      intro route
      cases route with
      | invalid => apply advances_fail h
      | imageEdit => apply advances_prepareImageEdit h
      | direct =>
          apply advances_worker h
          intro directed
          apply advances_awaitReview h

/-- What is ready to run. -/
theorem keeps_readySnapshot (artifacts : List ArtifactRef) (staticResult sendPlan readiness : String) :
  Keeps P (readySnapshot w job artifacts staticResult sendPlan readiness)
  := by
  unfold readySnapshot
  split
  · apply Meets.escape trivial
  · apply keeps_checked

/-- The check of the program of a drawing. -/
theorem advances_validateGcode (h : job.val.state ∉ terminalStates) :
  Does (Holds job) (validateGcode w job) (Advances job)
  := by
  apply Meets.bind (keeps_require _ _)
  intro _
  apply advances_worker h
  intro bundle
  apply Meets.bind (keeps_reading (stable_holds h))
  intro stored
  apply Meets.bind (keeps_require _ _)
  intro staticResult
  apply Meets.bind (keeps_require _ _)
  intro sendPlan
  apply Meets.bind (keeps_require _ _)
  intro readiness
  apply Meets.bind (keeps_readySnapshot _ _ _ _)
  intro snapshot
  apply advances_change h

/-- The next step of the check of a program. -/
theorem advances_gcodeCheck (h : job.val.state ∉ terminalStates) (hkind : job.val.kind = .gcodeCheck) :
  Does (Holds job) (advanceGcodeCheck w job) (Advances job)
  := by
  have hstate := job.jobStates_eq_true
  rw [hkind] at hstate
  unfold advanceGcodeCheck
  split
  · apply Meets.bind (keeps_takeInput (stable_holds h) _)
    intro artifacts
    apply advances_change h
  · apply Meets.bind (keeps_require _ _)
    intro _
    apply Meets.bind (keeps_execute _)
    intro result
    apply advances_finishWorker h
  · next hqueued hvalidating =>
      exfalso
      revert h hstate hqueued hvalidating
      cases job.val.state <;> simp [terminalStates, jobStates]

/-- The next step of a drawing. -/
theorem advances_offline (h : job.val.state ∉ terminalStates) :
  Does (Holds job) (advanceOffline w job) (Advances job)
  := by
  unfold advanceOffline
  split
  · apply Meets.bind (keeps_takeInput (stable_holds h) _)
    intro artifacts
    apply advances_change h
  · apply advances_prepareImage h
  · apply advances_change h
  · apply Meets.bind (keeps_execute _)
    intro result
    apply advances_finishWorker h
  · apply advances_change h
  · apply Meets.bind (keeps_execute _)
    intro result
    apply advances_finishWorker h
  · apply advances_validateGcode h
  · next hqueued hpreparing hready hplanning hpath hbuilding hvalidating =>
      exfalso
      revert h hqueued hpreparing hready hplanning hpath hbuilding hvalidating
      cases job.val.state <;> simp [terminalStates]

/-- The next step of a job on its way. -/
theorem advances_advanceFrom (h : job.val.state ∉ terminalStates) :
  Does (Holds job) (advanceFrom w job) (Advances job)
  := by
  apply Meets.bind (keeps_ask _)
  intro cancelled
  split
  · apply Meets.bind (keeps_ask _)
    intro identity
    apply advances_cancel h
  · split
    · next hkind => apply advances_gcodeCheck h hkind
    · apply advances_offline h

/-- A step of a job on its way changes the stored revision, and leaves the job fewer steps. -/
theorem advances_advance (h : job.val.state ∉ terminalStates) :
  Does (Holds job) (advance w job.val.jobId) (Advances job)
  := by
  apply does_get_bind h
  apply Meets.bind (advances_advanceFrom h)
  intro returned
  apply Meets.recordOf
  · intro c hc
    left
    exact hc.later
  · intro c hc
    exact hc

/-! ### The loops -/

/-- What is true of the job in a loop: it does not need recovery, and is stored as it is unless
it has stopped. -/
structure InLoop (jobId : String) (job : JobRecord) (db : Database) : Prop where
  jobId : job.val.jobId = jobId
  recovery : job.val.state ≠ .recoveryRequired
  holds : HoldsOnWay job db

/-- The machine does not change what is true of the job in a loop. -/
theorem stable_inLoop {jobId : String} : Stable (InLoop jobId job) := by
  rintro tx db ⟨hid, hrecovery, hholds⟩
  use hid, hrecovery
  apply stable_holdsOnWay tx db hholds

/-- After a step, the loop is at the job that the step returns. -/
theorem Advances.inLoop {db : Database} (h : Advances job job' db) : InLoop job.val.jobId job' db :=
  ⟨h.jobId, h.recovery, h.holds⟩

/-- What a round makes of a job on its way: a job that has fewer steps before it. -/
def RoundAdvances (job : JobRecord) : JobRecord ⊕ JobRecord → Database → Prop
  | .inl job', db => Advances job job' db
  | .inr _, _ => False

/-- A loop over the steps of a job ends in a job that has stopped. -/
theorem does_loop (jobId : String) {round : JobRecord → Program σ (JobRecord ⊕ JobRecord)}
    (hstep : ∀ job : JobRecord, job.val.jobId = jobId → job.val.state ∉ terminalStates →
      Does (Holds job) (round job) (RoundAdvances job))
    (hstop : ∀ job : JobRecord, job.val.state ≠ .recoveryRequired →
      job.val.state ∈ terminalStates → round job = pure (.inr job)) (job : JobRecord) :
  Does (InLoop jobId job) (Interaction.iterate round 8 job) fun job' _ =>
    job'.val.state ∈ terminalStates
  := by
  have hmeasure : job.val.state.remaining < 8 := by
    cases job.val.state <;> simp [JobState.remaining]
  apply Meets.iterate (I := fun job (c : Chain σ) => InLoop jobId job c.db.tables)
    (m := fun job => job.val.state.remaining) _ hmeasure
  intro job
  by_cases hjob : job.val.jobId = jobId ∧ job.val.state ≠ .recoveryRequired
  · obtain ⟨rfl, hrecovery⟩ := hjob
    by_cases hstate : job.val.state ∈ terminalStates
    · rw [hstop job hrecovery hstate]
      apply Meets.pure
      intro c _
      exact hstate
    · apply (hstep job rfl hstate).conseq
      · intro c hc
        apply hc.holds hstate
      · intro r c hr
        cases r with
        | inl job' => exact ⟨Advances.inLoop hr, Advances.remaining hr⟩
        | inr job' => exact hr.elim
  · apply Meets.of_false
    intro c hc
    exact hjob ⟨hc.jobId, hc.recovery⟩

/-- The chain drives a job until it stops. -/
theorem does_runToInterventionOrTerminal (hjob : job.val.state ≠ .recoveryRequired) :
  Does (Holds job) (runToInterventionOrTerminal w 8 job.val.jobId) fun job' _ =>
    job'.val.state ∈ terminalStates
  := by
  apply Meets.bind does_get
  intro found
  apply (does_loop job.val.jobId _ _ found).strengthen
  · rintro c ⟨rfl, hc⟩
    exact ⟨rfl, hjob, hc⟩
  · intro job hid hstate
    have hgo : job.val.state ∉ terminal ∧ job.val.state ≠ .blocked := by
      revert hstate
      cases job.val.state <;> simp [terminal, terminalStates]
    unfold runRound
    rw [if_pos hgo, ← hid]
    apply Meets.bind (advances_advance hstate)
    intro job'
    apply does_pure (Q := RoundAdvances job) (Sum.inl job')
  · intro job hrecovery hstate
    have hend : ¬ (job.val.state ∉ terminal ∧ job.val.state ≠ .blocked) := by
      revert hrecovery hstate
      cases job.val.state <;> simp [terminal, terminalStates]
    unfold runRound
    rw [if_neg hend]

/-- The coordinator drives a job until it stops. -/
theorem does_drive (hjob : job.val.state ≠ .recoveryRequired) :
  Does (Holds job) (drive w 8 job) fun job' _ => job'.val.state ∈ terminalStates
  := by
  apply (does_loop job.val.jobId _ _ job).strengthen
  · intro c hc
    exact ⟨rfl, hjob, fun _ => hc⟩
  · intro job hid hstate
    have hgo : job.val.state ∉ driveTerminal := by
      revert hstate
      cases job.val.state <;> simp [driveTerminal, terminalStates]
    unfold driveRound
    rw [if_pos hgo]
    apply Meets.bind (advances_advance hstate)
    intro job'
    apply Meets.bind (keeps_machineTurn stable_advances)
    intro _
    apply Meets.bind (keeps_require _ _)
    intro _
    apply does_pure (Q := RoundAdvances job) (Sum.inl job')
  · intro job hrecovery hstate
    have hend : ¬ job.val.state ∉ driveTerminal := by
      revert hrecovery hstate
      cases job.val.state <;> simp [driveTerminal, terminalStates]
    unfold driveRound
    rw [if_neg hend]

/-! ### When the loops end -/

/-- Started in the chain, a loop ends after so many rounds, by an exception or at a job that has
stopped, and every step that returns has changed the stored revision or found such a job. -/
def Ends (loop : Nat → Program σ JobRecord) (c : Chain σ) : Prop :=
  ∃ rounds, Meets (fun start => start = c) (loop rounds) DriveEvent.Progresses
    fun job _ => job.val.state ∈ terminalStates

/-- Whatever surrounds the chain, driving a job ends. -/
def DrivingEnds (db : SharedDatabase) (job : JobRecord) : Prop :=
  ∀ (σ : Type) (w : Surroundings σ) (around : σ),
    Ends (fun rounds => runToInterventionOrTerminal w rounds job.val.jobId) ⟨db, around⟩ ∧
      Ends (fun rounds => drive w rounds job) ⟨db, around⟩

/-- Surroundings in which nothing happens: nobody commits and nobody cancels. -/
def still : Surroundings Unit where
  machine s := ([], s)
  cancelRequested _ s := (false, s)
  cancellationIdentity _ s := (("", .service), s)
  freshId s := ("", s)
  commit s := (⟨"", 0, 0, 0, true⟩, s)
  routeMode _ := none
  importFile _ _ s := (none, s)
  rehydrate _ s := (none, s)
  submitTask _ _ s := (none, s)
  wait _ _ s := (artifactContractFailure, s)
  validateArtifacts _ _ s := (none, s)
  promote _ _ s := (none, s)
  discardStaging s := (none, s)
  gcodeArtifact _ s := (none, s)
  validatedRoute _ _ s := (none, s)
  readJson _ s := (none, s)
  planningParameters := ""
  writeProjection _ s := (none, s)
  publish _ s := (some (), s)

/-- In still surroundings, a stored job is read, and the database stays as it is. -/
theorem get_still {c : Chain Unit} (h : Holds job c.db.tables) :
  get still job.val.jobId c = .done [] job c
  := by
  have hbuild : JobRecord.build job.val = .ok job := acceptIf_eq_ok_iff.mpr rfl
  apply bind_eq_done_iff.mpr
  use [], some job.val, c, []
  refine ⟨?_, ?_, rfl⟩
  · apply bind_eq_done_iff.mpr
    use [], some job.val, c, []
    refine ⟨?_, rfl, rfl⟩
    change RunResult.done [] (c.db.tables.jobs.get? job.val.jobId) c = _
    rw [h]
  · change checked (JobRecord.build job.val) c = _
    rw [hbuild]
    rfl

/-- In still surroundings, a step does nothing with a job that needs recovery. -/
theorem advance_still {c : Chain Unit} (h : Holds job c.db.tables)
    (hjob : job.val.state = .recoveryRequired) :
  advance still job.val.jobId c = .done [.advanced job job (some job.val)] job c
  := by
  have hkind : job.val.kind ≠ .gcodeCheck := by
    intro hkind
    have hstates := job.jobStates_eq_true
    rw [hkind, hjob] at hstates
    simp [jobStates] at hstates
  have hoffline : advanceOffline still job = pure job := by
    unfold advanceOffline
    rw [hjob]
  have hfrom : advanceFrom still job c = .done [] job c := by
    apply bind_eq_done_iff.mpr
    use [], false, c, []
    refine ⟨rfl, ?_, rfl⟩
    simp only [Bool.false_eq_true, if_false, if_neg hkind, hoffline]
    rfl
  apply bind_eq_done_iff.mpr
  use [], job, c, [.advanced job job (some job.val)]
  refine ⟨get_still h, ?_, rfl⟩
  apply bind_eq_done_iff.mpr
  use [], job, c, [.advanced job job (some job.val)]
  refine ⟨hfrom, ?_, rfl⟩
  rw [← h]

/-- A loop whose rounds come back to the job does not end. -/
theorem iterate_unfinished {c : Chain σ} {round : JobRecord → Program σ (JobRecord ⊕ JobRecord)}
    {events : List DriveEvent} (h : round job c = .done events (.inl job) c) (rounds : Nat) :
  ∃ before, Interaction.iterate round rounds job c = .unfinished before
  := by
  induction rounds with
  | zero => exact ⟨[], rfl⟩
  | succ n ih =>
      obtain ⟨before, hbefore⟩ := ih
      use events ++ before
      change andThen (round job) _ c = _
      unfold andThen
      rw [h]
      simp only [hbefore]

/-- The chain drives a job that needs recovery forever. -/
theorem not_ends_still {db : SharedDatabase} (h : Holds job db.tables)
    (hjob : job.val.state = .recoveryRequired) :
  ¬ Ends (fun rounds => runToInterventionOrTerminal still rounds job.val.jobId) ⟨db, ()⟩
  := by
  rintro ⟨rounds, hmeets⟩
  have hgo : job.val.state ∉ terminal ∧ job.val.state ≠ .blocked := by
    rw [hjob]
    decide
  have hround : runRound still job.val.jobId job ⟨db, ()⟩ =
      .done [.advanced job job (some job.val)] (.inl job) ⟨db, ()⟩ := by
    unfold runRound
    rw [if_pos hgo]
    apply bind_eq_done_iff.mpr
    use [.advanced job job (some job.val)], job, ⟨db, ()⟩, []
    refine ⟨advance_still h hjob, rfl, rfl⟩
  obtain ⟨before, hbefore⟩ := iterate_unfinished hround rounds
  apply hmeets.finished ⟨db, ()⟩ rfl before
  change andThen (get still job.val.jobId) _ _ = _
  unfold andThen
  rw [get_still h]
  simp only
  rw [hbefore]
  rfl

/-- Driving a stored job ends, whatever surrounds the chain, exactly when the job does not need
recovery. -/
theorem driving_ends_iff {db : SharedDatabase} {job : JobRecord} (hstored : Holds job db.tables) :
  DrivingEnds db job ↔ job.val.state ≠ .recoveryRequired
  := by
  constructor
  · intro hends hjob
    apply not_ends_still hstored hjob (hends Unit still ()).1
  · intro hjob σ w around
    constructor
    · use 8
      apply (does_runToInterventionOrTerminal hjob).strengthen
      rintro c rfl
      exact hstored
    · use 8
      apply (does_drive hjob).strengthen
      rintro c rfl
      exact hstored

/-! ### A job that is driven, and one that is driven forever -/

/-- A database with one job. -/
def databaseOf (job : JobRecord) : SharedDatabase where
  tables := { sampleDatabase with jobs := ⟨[job.val], List.nodup_singleton _⟩ }
  artifacts := .empty _

/-- A drawing that was just requested. -/
def queuedJob : JobRecord :=
  ⟨{ sampleJob with state := .queued, revision := 0, readySnapshot := none }, by decide +kernel⟩

/-- A drawing whose execution has failed. -/
def recoveryJob : JobRecord :=
  ⟨{ sampleJob with state := .recoveryRequired, revision := 2 }, by decide +kernel⟩

/-- The job of such a database is stored. -/
theorem holds_databaseOf (job : JobRecord) : Holds job (databaseOf job).tables := by
  apply Table.get?_eq_some_iff.mpr
  refine ⟨List.mem_singleton.mpr rfl, rfl⟩

/-- Driving a drawing that was just requested ends. -/
theorem driving_queuedJob_ends :
  Holds queuedJob (databaseOf queuedJob).tables ∧ DrivingEnds (databaseOf queuedJob) queuedJob
  := by
  have h := holds_databaseOf queuedJob
  use h
  apply (driving_ends_iff h).mpr
  decide

/-- The chain never stops driving a drawing whose execution has failed, although nothing happens
around it. -/
theorem driving_recoveryJob_does_not_end :
  Holds recoveryJob (databaseOf recoveryJob).tables ∧
    ¬ Ends (fun rounds => runToInterventionOrTerminal still rounds "job")
      ⟨databaseOf recoveryJob, ()⟩
  := by
  have h := holds_databaseOf recoveryJob
  use h
  apply not_ends_still h rfl

end OfflineJobChain

end DrawingMachine
