import DrawingMachine.Persistence.StagingRuns

/-!
# The admission of a bundle

What holds of the admissions in every run: a request has one row and gets one job, the job of
a row is there exactly from its admission on, and every row is read as a record. A step moves
a row along an edge of the table, and stores the job of a request together with its admission.
-/

namespace DrawingMachine

namespace StagedWorld

open StagedDatabase (Replaced Registered)

variable {w w' : StagedWorld}

/-! ### What runs keep -/

/-- What holds of the admissions in every run. -/
structure Sound (w : StagedWorld) : Prop where
  checks : ∀ row ∈ w.staging, row.Checks
  valid : ∀ row ∈ w.staging, row.Valid
  job : ∀ row ∈ w.staging, ∀ j, row.jobId = some j → ∃ job ∈ w.world.db.tables.jobs, job.jobId = j
  distinct : ∀ a ∈ w.staging, ∀ b ∈ w.staging, a.jobId ≠ none → a.jobId = b.jobId → a = b
  entered : ∀ row ∈ w.staging, row.state = .recoveryRequired →
    ∃ prior, (some prior, row) ∈ w.changes
  entry : ∀ prior row, (some prior, row) ∈ w.changes → row.state = .recoveryRequired →
    (row.jobId ≠ none ↔ prior.state = .durablyAdmitted ∨ prior.state = .consumed)
  logged : ∀ c ∈ w.changes, c.2.state = .durablyAdmitted →
    ∃ row ∈ w.staging, row.requestId = c.2.requestId ∧ row.jobId ≠ none
  once : ((w.changes.filter fun c => c.2.state = .durablyAdmitted).map
    fun c => c.2.requestId).Nodup

/-- The admissions of a new database. -/
theorem sound_empty : Sound empty := by
  constructor
  case once => simp [empty]
  case entry =>
    intro prior row h
    simp [empty] at h
  case logged =>
    intro c h
    simp [empty] at h
  all_goals
    intro row hrow
    apply absurd hrow (Table.notMem_empty row)

/-- The jobs grow in every step, and the copies are of the stored jobs. -/
theorem Step.grows (h : Step w w') (hw : w.world.Copied) :
  Database.Grows w.world.db.tables w'.world.db.tables ∧ w'.world.Copied
  := by
  have hsame : ∀ (copies : List JobRecord) (requestId : String) (db : StagedDatabase),
      db.shared = w.world.db → copies = w.world.copies →
      Database.Grows w.world.db.tables (w.commit copies requestId db).world.db.tables ∧
        (w.commit copies requestId db).world.Copied := by
    rintro copies requestId db hshared rfl
    simp only [commit, hshared]
    exact ⟨Database.Grows.refl _, hw⟩
  have htransition : ∀ (requestId : String) (revision : Int) (expected result : StagingAdmissionState)
      (code : Option StagingRecoveryReasonCode) (now : String),
      (w.db.transitionStaging requestId revision expected result code now).2.shared = w.world.db := by
    intro requestId revision expected result code now
    obtain h | ⟨old, -, -, -, hreplaced⟩ := StagedDatabase.transitionStaging_cases w.db
      requestId revision expected result code now
    · rw [h]
      rfl
    · rw [hreplaced.database]
      rfl
  cases h with
  | rolledBack => exact ⟨Database.Grows.refl _, hw⟩
  | register requestId role bundleName lease leaseSha256 now record hrecord h =>
      exact hsame _ _ _ (StagedDatabase.registered_of_registerDecodedStaging h).shared rfl
  | claim requestId expectedRevision now => exact hsame _ _ _ (htransition _ _ _ _ _ _) rfl
  | consume requestId expectedRevision now => exact hsame _ _ _ (htransition _ _ _ _ _ _) rfl
  | recover requestId expectedRevision read code quarantined now =>
      exact hsame _ _ _ (htransition _ _ _ _ _ _) rfl
  | @createJob db job artifacts event audit recordedAt requestId expectedRevision now record h =>
      obtain ⟨old, -, -, hadmitted⟩ := StagedDatabase.admitted_of_createJobWithStaging h
      have hgrows : Database.Grows w.world.db.tables db.shared.tables := by
        intro row hrow
        refine ⟨row, ?_, rfl, .inl rfl, fun _ => rfl⟩
        exact (Table.mem_of_insert? hadmitted.jobs).mpr (.inl hrow)
      use hgrows
      apply (hw.of_grows hgrows).cons
      exact (Table.mem_of_insert? hadmitted.jobs).mpr (.inr rfl)
  | other world h =>
      obtain ⟨hwrites, hcopied⟩ := h.writes hw
      exact ⟨World.grows_of_writes hwrites, hcopied⟩

/-- The jobs of the admissions stay while the jobs grow. -/
theorem Sound.job_of_grows (hw : w.Sound) (hgrows : Database.Grows w.world.db.tables w'.world.db.tables)
    {row : StagingRow} (hrow : row ∈ w.staging) {j : String} (hj : row.jobId = some j) :
  ∃ job ∈ w'.world.db.tables.jobs, job.jobId = j
  := by
  obtain ⟨job, hjob, rfl⟩ := hw.job row hrow j hj
  obtain ⟨job', hjob', hid, -⟩ := hgrows job hjob
  exact ⟨job', hjob', hid⟩

/-- The state before a step of the table decides whether a job is bound. -/
theorem bound_iff_of_advances {old new : StagingRow} (hchecks : old.Checks)
    (hadvances : old.Advances new) (hjob : new.jobId = old.jobId)
    (hstate : new.state = .recoveryRequired) :
  new.jobId ≠ none ↔ old.state = .durablyAdmitted ∨ old.state = .consumed
  := by
  rw [hjob]
  have hedge := hadvances.edge
  rw [hstate] at hedge
  constructor
  · intro hbound
    by_contra hstates
    apply hbound
    apply hchecks.unbound
    cases h : old.state <;> simp [h, StagingRow.edge] at hedge hstates ⊢
  · exact hchecks.bound

/-- A row that advances keeps the admissions sound. -/
theorem Sound.of_replaced (hw : w.Sound)
    (hgrows : Database.Grows w.world.db.tables w'.world.db.tables) {old new : StagingRow}
    (hreplaced : Replaced ⟨w'.world.db, w.staging⟩ old new w'.db)
    (hchanges : w'.changes = (some old, new) :: w.changes) (hjob : new.jobId ≠ some "")
    (hentry : new.state = .recoveryRequired →
      (new.jobId ≠ none ↔ old.state = .durablyAdmitted ∨ old.state = .consumed))
    (hadmitted : new.state = .durablyAdmitted → old.jobId = none) :
  w'.Sound
  := by
  have hmem : ∀ row, row ∈ w'.staging ↔ row = new ∨ (row ∈ w.staging ∧ row.requestId ≠ new.requestId) :=
    fun _ => hreplaced.mem_iff
  have hold : old ∈ w.staging := hreplaced.mem
  have hid := StagingRow.requestId_of_identity hreplaced.advances.identity
  have hother : ∀ row ∈ w.staging, row.requestId ≠ new.requestId →
      row ∈ w.staging.rows.filter fun other => other.requestId ≠ old.requestId := by
    intro row hrow hne
    rw [List.mem_filter, decide_eq_true_eq, ← hid]
    exact ⟨hrow, hne⟩
  constructor
  · intro row hrow
    rcases (hmem row).mp hrow with rfl | ⟨hrow, -⟩
    · exact hreplaced.accepts.checks
    · exact hw.checks row hrow
  · intro row hrow
    rcases (hmem row).mp hrow with rfl | ⟨hrow, -⟩
    · exact (hw.valid old hold).of_identity hreplaced.advances.identity hjob
    · exact hw.valid row hrow
  · intro row hrow j hj
    rcases (hmem row).mp hrow with rfl | ⟨hrow, -⟩
    · exact hreplaced.accepts.job j hj
    · exact hw.job_of_grows hgrows hrow hj
  · intro a ha b hb hne heq
    rcases (hmem a).mp ha with rfl | ⟨ha, hane⟩ <;> rcases (hmem b).mp hb with rfl | ⟨hb, hbne⟩
    · rfl
    · apply absurd heq.symm (hreplaced.accepts.jobId hne b (hother b hb hbne))
    · rw [heq] at hne
      apply absurd heq (hreplaced.accepts.jobId hne a (hother a ha hane))
    · exact hw.distinct a ha b hb hne heq
  · intro row hrow hstate
    rw [hchanges]
    rcases (hmem row).mp hrow with rfl | ⟨hrow, -⟩
    · exact ⟨old, List.mem_cons_self⟩
    · obtain ⟨prior, hprior⟩ := hw.entered row hrow hstate
      exact ⟨prior, List.mem_cons_of_mem _ hprior⟩
  · intro prior row hchange hstate
    rw [hchanges] at hchange
    rcases List.mem_cons.mp hchange with heq | hchange
    · obtain ⟨hprior, rfl⟩ := Prod.mk.inj heq
      obtain rfl := Option.some.inj hprior
      exact hentry hstate
    · exact hw.entry prior row hchange hstate
  · intro c hc hstate
    rw [hchanges] at hc
    rcases List.mem_cons.mp hc with rfl | hc
    · refine ⟨new, (hmem new).mpr (.inl rfl), rfl, ?_⟩
      exact hreplaced.accepts.checks.bound (.inl hstate)
    · obtain ⟨row, hrow, hrequest, hbound⟩ := hw.logged c hc hstate
      by_cases hsame : row.requestId = new.requestId
      · -- The row that was bound by the change has advanced again, and keeps its job.
        obtain rfl : row = old := Table.eq_of_key_eq hrow hold (hsame.trans hid)
        refine ⟨new, (hmem new).mpr (.inl rfl), hid.trans hrequest, ?_⟩
        rw [hreplaced.advances.binding hbound]
        exact hbound
      · exact ⟨row, (hmem row).mpr (.inr ⟨hrow, hsame⟩), hrequest, hbound⟩
  · rw [hchanges, List.filter_cons]
    split
    · next hstate =>
        rw [List.map_cons, List.nodup_cons]
        refine ⟨?_, hw.once⟩
        intro hmemId
        obtain ⟨c, hc, hrequest⟩ := List.mem_map.mp hmemId
        obtain ⟨hc, hcstate⟩ := List.mem_filter.mp hc
        obtain ⟨row, hrow, hrowId, hbound⟩ := hw.logged c hc (of_decide_eq_true hcstate)
        have hsame : row.requestId = old.requestId := by
          rw [hrowId, hrequest]
          exact hid
        obtain rfl : row = old := Table.eq_of_key_eq hrow hold hsame
        exact hbound (hadmitted (of_decide_eq_true hstate))
    · exact hw.once

/-- A request that is registered keeps the admissions sound. -/
theorem Sound.of_registered (hw : w.Sound) {row : StagingRow} (h : w.db.Registered row w'.db)
    (hchanges : w'.changes = (none, row) :: w.changes) :
  w'.Sound
  := by
  have hmem : ∀ a, a ∈ w'.staging ↔ a ∈ w.staging ∨ a = row := fun _ => Table.mem_of_insert? h.table
  have hshared : w'.world.db = w.world.db := h.shared
  have hunbound : row.jobId = none := h.accepts.checks.unbound (.inl h.state)
  constructor
  · intro a ha
    rcases (hmem a).mp ha with ha | rfl
    · exact hw.checks a ha
    · exact h.accepts.checks
  · intro a ha
    rcases (hmem a).mp ha with ha | rfl
    · exact hw.valid a ha
    · exact h.valid
  · intro a ha j hj
    rw [hshared]
    rcases (hmem a).mp ha with ha | rfl
    · exact hw.job a ha j hj
    · rw [hunbound] at hj
      cases hj
  · intro a ha b hb hne heq
    rcases (hmem a).mp ha with ha | rfl
    · rcases (hmem b).mp hb with hb | rfl
      · exact hw.distinct a ha b hb hne heq
      · apply absurd (heq.trans hunbound) hne
    · apply absurd hunbound hne
  · intro a ha hstate
    rw [hchanges]
    rcases (hmem a).mp ha with ha | rfl
    · obtain ⟨prior, hprior⟩ := hw.entered a ha hstate
      exact ⟨prior, List.mem_cons_of_mem _ hprior⟩
    · rw [h.state] at hstate
      cases hstate
  · intro prior a hchange hstate
    rw [hchanges] at hchange
    rcases List.mem_cons.mp hchange with heq | hchange
    · cases heq
    · exact hw.entry prior a hchange hstate
  · intro c hc hstate
    rw [hchanges] at hc
    rcases List.mem_cons.mp hc with rfl | hc
    · rw [h.state] at hstate
      cases hstate
    · obtain ⟨a, ha, hrequest, hbound⟩ := hw.logged c hc hstate
      exact ⟨a, (hmem a).mpr (.inl ha), hrequest, hbound⟩
  · rw [hchanges, List.filter_cons, if_neg (by simp [h.state])]
    exact hw.once

/-- Every effect keeps the admissions sound. -/
theorem Sound.of_effect (hw : w.Sound)
    (hgrows : Database.Grows w.world.db.tables w'.world.db.tables) (h : Effect w w') :
  w'.Sound
  := by
  cases h with
  | quiet staging changes =>
      obtain ⟨world, rows, noted⟩ := w'
      simp only at staging changes
      subst staging changes
      constructor
      · exact hw.checks
      · exact hw.valid
      · intro row hrow j hj
        exact hw.job_of_grows hgrows hrow hj
      · exact hw.distinct
      · exact hw.entered
      · exact hw.entry
      · exact hw.logged
      · exact hw.once
  | registered row revision registered changes => exact hw.of_registered registered changes
  | replaced old new jobId admitted shared replaced changes =>
      have hold := replaced.mem
      have hreplaced : Replaced ⟨w'.world.db, w.staging⟩ old new w'.db := by
        rw [shared]
        exact replaced
      apply hw.of_replaced hgrows hreplaced changes
      · rw [jobId]
        exact (hw.valid old hold).jobId
      · exact bound_iff_of_advances (hw.checks old hold) replaced.advances jobId
      · intro h
        apply absurd h admitted
  | admitted job old new admitted changes =>
      apply hw.of_replaced hgrows admitted.replaced changes
      · rw [admitted.jobId]
        obtain ⟨fields, hfields⟩ := job
        simp only [JobRecord.Fields.postInit, Except.unit_bind_eq_ok_iff] at hfields
        intro h
        exact validateString_eq_ok_iff.mp hfields.2.1 (Option.some.inj h)
      · rw [admitted.admitted]
        intro h
        cases h
      · intro _
        apply (hw.checks old admitted.replaced.mem).unbound
        right
        left
        exact admitted.state

/-- In every run, the admissions are sound and the copies are of the stored jobs. -/
theorem Reachable.sound (h : Reachable w) : w.Sound ∧ w.world.Copied := by
  induction h with
  | refl =>
      use sound_empty
      intro job hjob
      cases hjob
  | tail _ hstep ih =>
      obtain ⟨hgrows, hcopied⟩ := hstep.grows ih.2
      exact ⟨ih.1.of_effect hgrows hstep.effect, hcopied⟩

/-! ### The admission of a bundle -/

/-- What is to hold of the admissions: a request has one row and was given one job; a row binds
a job exactly when it is admitted or consumed, or entered recovery from there; that job is
stored, and is bound by no other row; and every row is read as a record. -/
structure Consistent (w : StagedWorld) : Prop where
  requests : (w.staging.rows.map StagingRow.requestId).Nodup
  jobs : ((w.changes.filter fun c => c.2.state = .durablyAdmitted).map
    fun c => c.2.requestId).Nodup
  distinct : ∀ a ∈ w.staging, ∀ b ∈ w.staging, a.jobId ≠ none → a.jobId = b.jobId → a = b
  bound : ∀ row ∈ w.staging, row.jobId ≠ none ↔
    row.state = .durablyAdmitted ∨ row.state = .consumed ∨
      (row.state = .recoveryRequired ∧ ∃ prior, (some prior, row) ∈ w.changes ∧
        (prior.state = .durablyAdmitted ∨ prior.state = .consumed))
  stored : ∀ row ∈ w.staging, ∀ j, row.jobId = some j →
    ∃ job ∈ w.world.db.tables.jobs, job.jobId = j
  decodes : ∀ row ∈ w.staging, ∃ record, row.decode = .ok record

/-- What a step is to do to the admissions: no row disappears, and one that changes keeps what
identifies it, gets the next revision, and goes along an edge of the table; a new row is the
first of its request; and a row is admitted together with the job that is stored for it. -/
structure Follows (w w' : StagedWorld) : Prop where
  kept : ∀ row ∈ w.staging, ∃ row' ∈ w'.staging, row' = row ∨
    (row'.identity = row.identity ∧ row'.revision = row.revision + 1 ∧
      StagingRow.edge row.state row'.state = true)
  fresh : ∀ row' ∈ w'.staging, (∃ row ∈ w.staging, row.requestId = row'.requestId) ∨
    (row'.state = .requestDecoded ∧ row'.revision = 0 ∧ row'.jobId = none)
  admitted : ∀ row ∈ w.staging, ∀ row' ∈ w'.staging, row'.requestId = row.requestId →
    row.state ≠ .durablyAdmitted → row'.state = .durablyAdmitted →
    ∃ job ∈ w'.world.db.tables.jobs, row'.jobId = some job.jobId ∧
      ∀ other ∈ w.world.db.tables.jobs, other.jobId ≠ job.jobId

/-- Sound admissions are consistent. -/
theorem Sound.consistent (hw : w.Sound) : w.Consistent where
  requests := w.staging.nodup
  jobs := hw.once
  distinct := hw.distinct
  bound := by
    intro row hrow
    have hchecks := hw.checks row hrow
    constructor
    · intro hbound
      cases hstate : row.state with
      | durablyAdmitted => simp
      | consumed => simp
      | recoveryRequired =>
          obtain ⟨prior, hprior⟩ := hw.entered row hrow hstate
          right
          right
          exact ⟨rfl, prior, hprior, (hw.entry prior row hprior hstate).mp hbound⟩
      | _ => apply absurd (hchecks.unbound (by simp [hstate])) hbound
    · rintro (hstate | hstate | ⟨hstate, prior, hprior, hprior'⟩)
      · exact hchecks.bound (.inl hstate)
      · exact hchecks.bound (.inr hstate)
      · exact (hw.entry prior row hprior hstate).mpr hprior'
  stored := hw.job
  decodes := by
    intro row hrow
    exact StagingRow.exists_decode (hw.checks row hrow) (hw.valid row hrow)

/-- The rows after a row was replaced. -/
theorem kept_of_replaced {shared : SharedDatabase} {old new : StagingRow}
    (h : Replaced ⟨shared, w.staging⟩ old new w'.db) :
  (∀ row ∈ w.staging, ∃ row' ∈ w'.staging, row' = row ∨
    (row'.identity = row.identity ∧ row'.revision = row.revision + 1 ∧
      StagingRow.edge row.state row'.state = true)) ∧
    ∀ row' ∈ w'.staging, ∃ row ∈ w.staging, row.requestId = row'.requestId
  := by
  have hmem : ∀ row, row ∈ w'.staging ↔ row = new ∨ (row ∈ w.staging ∧ row.requestId ≠ new.requestId) :=
    fun _ => h.mem_iff
  have hid := StagingRow.requestId_of_identity h.advances.identity
  constructor
  · intro row hrow
    by_cases hsame : row.requestId = new.requestId
    · obtain rfl : row = old := Table.eq_of_key_eq hrow h.mem (hsame.trans hid)
      refine ⟨new, (hmem new).mpr (.inl rfl), .inr ?_⟩
      exact ⟨h.advances.identity, h.advances.revision, h.advances.edge⟩
    · exact ⟨row, (hmem row).mpr (.inr ⟨hrow, hsame⟩), .inl rfl⟩
  · intro row' hrow'
    rcases (hmem row').mp hrow' with rfl | ⟨hrow', -⟩
    · exact ⟨old, h.mem, hid.symm⟩
    · exact ⟨row', hrow', rfl⟩

/-- A row that a step leaves was not admitted by it. -/
theorem eq_of_mem {a b : StagingRow} (ha : a ∈ w.staging) (hb : b ∈ w.staging)
    (hid : b.requestId = a.requestId) (hstate : a.state ≠ .durablyAdmitted)
    (hadmitted : b.state = .durablyAdmitted) :
  False
  := by
  obtain rfl : b = a := Table.eq_of_key_eq hb ha hid
  exact hstate hadmitted

/-- Every effect on sound admissions follows the table. -/
theorem Effect.follows (h : Effect w w') : Follows w w' := by
  cases h with
  | quiet staging changes =>
      constructor
      · intro row hrow
        exact ⟨row, by rw [staging]; exact hrow, .inl rfl⟩
      · intro row' hrow'
        rw [staging] at hrow'
        exact .inl ⟨row', hrow', rfl⟩
      · intro row hrow row' hrow' hid hstate hadmitted
        rw [staging] at hrow'
        exact (eq_of_mem hrow hrow' hid hstate hadmitted).elim
  | registered row revision registered changes =>
      have hmem : ∀ a, a ∈ w'.staging ↔ a ∈ w.staging ∨ a = row :=
        fun _ => Table.mem_of_insert? registered.table
      constructor
      · intro a ha
        exact ⟨a, (hmem a).mpr (.inl ha), .inl rfl⟩
      · intro a ha
        rcases (hmem a).mp ha with ha | rfl
        · exact .inl ⟨a, ha, rfl⟩
        · right
          exact ⟨registered.state, revision,
            registered.accepts.checks.unbound (.inl registered.state)⟩
      · intro a ha b hb hid hstate hadmitted
        rcases (hmem b).mp hb with hb | rfl
        · exact (eq_of_mem ha hb hid hstate hadmitted).elim
        · rw [registered.state] at hadmitted
          cases hadmitted
  | replaced old new jobId admitted shared replaced changes =>
      obtain ⟨hkept, hfresh⟩ := kept_of_replaced replaced
      constructor
      · exact hkept
      · intro row' hrow'
        exact .inl (hfresh row' hrow')
      · intro row hrow row' hrow' hid hstate hadmitted
        rcases replaced.mem_iff.mp hrow' with rfl | ⟨hrow', -⟩
        · apply absurd hadmitted admitted
        · exact (eq_of_mem hrow hrow' hid hstate hadmitted).elim
  | admitted job old new admitted changes =>
      obtain ⟨hkept, hfresh⟩ := kept_of_replaced admitted.replaced
      constructor
      · exact hkept
      · intro row' hrow'
        exact .inl (hfresh row' hrow')
      · intro row hrow row' hrow' hid hstate hadmitted
        rcases admitted.replaced.mem_iff.mp hrow' with rfl | ⟨hrow', -⟩
        · refine ⟨job.val, (Table.mem_of_insert? admitted.jobs).mpr (.inr rfl), admitted.jobId, ?_⟩
          exact (Table.insert?_eq_some_iff.mp admitted.jobs).1
        · exact (eq_of_mem hrow hrow' hid hstate hadmitted).elim

/-- In every world that a run reaches, the admissions are consistent, every step follows the
table, and the operation that stores the job of a request admits its bundle in the same
transaction. -/
theorem staging_admissions (h : Reachable w) :
  w.Consistent ∧ (∀ w', Step w w' → Follows w w') ∧
    ∀ (job : JobRecord) (artifacts : List ArtifactRef) (event : JobEvent) (audit : AuditRecord)
      (recordedAt : Timestamp) (requestId : String) (revision : Int) (now : String)
      (record : StagingAdmissionRecordV1) (db : StagedDatabase),
      w.db.createJobWithStaging job artifacts event audit recordedAt requestId revision now =
          .ok (record, db) →
        ∃ old new, old.requestId = requestId ∧ w.db.Admitted job old new db
  := by
  use h.sound.1.consistent
  constructor
  · intro w' hstep
    exact hstep.effect.follows
  · intro job artifacts event audit recordedAt requestId revision now record db hcreate
    obtain ⟨old, hid, -, hadmitted⟩ := StagedDatabase.admitted_of_createJobWithStaging hcreate
    exact ⟨old, _, hid, hadmitted⟩

/-! ### A sample run -/

/-- The request of the sample. -/
def sampleRequest : String := "01234567-89ab-4def-8123-456789abcdef"

/-- The lease of the sample bundle. -/
def sampleLease : StagingLeaseV1 :=
  ⟨{ requestId := sampleRequest
     role := .gcode
     state := .dispatchUncertain
     sourceSha256 := Database.sampleDigest
     sourceSizeBytes := 1
     payloadIdentity := ⟨⟨0, 1, 1, Database.sampleDigest⟩, by decide +kernel⟩
     publisherBootId := "boot"
     publishedMonotonicNs := 0
     deadlineMonotonicNs := 1
     payloadName := "payload"
     schemaVersion := 1 }, by decide +kernel⟩

/-- The record of the sample request. -/
def sampleRecord : StagingAdmissionRecordV1 :=
  ⟨decodedFields sampleRequest .gcode
    "gcode--01234567-89ab-4def-8123-456789abcdef--00000000000000000000000000000000.stage"
    sampleLease Database.sampleDigest "now", by decide +kernel⟩

/-- The job of the sample request. -/
def sampleJob : JobRecord :=
  ⟨OfflineJobChain.queuedFields "job" .gcodeCheck "check" "" Database.sampleSnapshot.val.config 0,
    by decide +kernel⟩

/-- The event of the sample job. -/
def sampleEvent : JobEvent :=
  ⟨{ eventId := "e"
     jobId := "job"
     jobRevision := 0
     eventType := "gcode_check.queued"
     priorState := none
     resultState := .queued
     requestId := none
     requesterType := "SERVICE"
     requester := .service
     createdAt := 0 }, by decide +kernel⟩

/-- The audit record of the sample event. -/
def sampleAudit : AuditRecord :=
  ⟨{ eventId := "e"
     eventType := "gcode_check.queued"
     requestId := none
     requester := .service
     jobId := "job"
     commandName := "gcode.check"
     commandEventType := "gcode_check.queued"
     jobKind := .gcodeCheck
     priorState := none
     resultState := .queued
     errorCode := none
     blockerCode := none
     serviceVersion := OfflineJobChain.version }, by decide +kernel⟩

/-- The sample request is registered. -/
def sampleRegistered : StagedWorld :=
  match empty.db.registerDecodedStaging sampleRecord with
  | .error _ => empty
  | .ok db => empty.commit [] sampleRequest db

/-- The bundle of the sample request is claimed. -/
def sampleClaimed : StagedWorld :=
  sampleRegistered.commit sampleRegistered.world.copies sampleRequest
    (sampleRegistered.db.markStagingClaimed sampleRequest 0 "now").2

/-- The job of the sample request is stored. -/
def sampleAdmitted : StagedWorld :=
  match sampleClaimed.db.createJobWithStaging sampleJob [] sampleEvent sampleAudit 0 sampleRequest 1
      "now" with
  | .error _ => sampleClaimed
  | .ok (_, db) => sampleClaimed.commit (sampleJob :: sampleClaimed.world.copies) sampleRequest db

/-- The sample run is a run. -/
theorem reachable_sampleAdmitted : Reachable sampleAdmitted := by
  have hregistered : Step empty sampleRegistered := by
    unfold sampleRegistered
    split
    · exact Step.rolledBack _
    · next db h => exact Step.register _ _ _ sampleLease _ _ sampleRecord rfl h
  have hadmitted : Step sampleClaimed sampleAdmitted := by
    unfold sampleAdmitted
    split
    · exact Step.rolledBack _
    · next record db h => exact Step.createJob _ _ _ _ _ _ _ _ _ h
  apply Relation.ReflTransGen.tail _ hadmitted
  apply Relation.ReflTransGen.tail _ (Step.claim sampleRequest 0 "now")
  exact Relation.ReflTransGen.single hregistered

/-- The row of the sample request after the admission. -/
def sampleRow : StagingRow :=
  { StagingRow.ofRecord sampleRecord.val with
    state := .durablyAdmitted
    jobId := some "job"
    revision := 2 }

/-- The sample run leaves the row of the sample request. -/
theorem sampleAdmitted_rows : sampleAdmitted.staging.rows = [sampleRow] := by decide +kernel

/-- The admission of a request with its job. -/
theorem staging_admissions_of_sample :
  ∃ w : StagedWorld, Reachable w ∧ (∃ row ∈ w.staging, row.state = .durablyAdmitted) ∧
    w.Consistent ∧ ∀ w', Step w w' → Follows w w'
  := by
  have hsound := staging_admissions reachable_sampleAdmitted
  refine ⟨sampleAdmitted, reachable_sampleAdmitted, ?_, hsound.1, hsound.2.1⟩
  refine ⟨sampleRow, ?_, rfl⟩
  rw [Table.mem_def, sampleAdmitted_rows]
  exact List.mem_singleton_self _

end StagedWorld

end DrawingMachine
