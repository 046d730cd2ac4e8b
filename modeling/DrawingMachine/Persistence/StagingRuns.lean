import DrawingMachine.Persistence.SharedRuns
import DrawingMachine.Persistence.StagingStore

/-!
# Runs of the admissions

The operations on the admissions run between those of both repositories. Each is a transaction
of its own, and a crash or a rollback leaves the database as it was. The changes of the rows are
noted beside the database, and the admission of a bundle is followed through them.
-/

namespace DrawingMachine

/-! ### What a statement does to a row -/

/-- A row is updated as the triggers of the table allow. -/
structure StagingRow.Advances (old new : StagingRow) : Prop where
  identity : new.identity = old.identity
  revision : new.revision = old.revision + 1
  edge : StagingRow.edge old.state new.state = true
  binding : old.jobId ≠ none → new.jobId = old.jobId

namespace StagingRow

variable {old new : StagingRow}

/-- The triggers accept an update exactly when the row advances. -/
theorem triggers_eq_ok_iff : triggers old new = .ok () ↔ old.Advances new := by
  simp only [triggers, Except.unit_bind_eq_ok_iff, rejectIf_eq_ok_iff, not_and, not_not, ne_eq,
    Bool.not_eq_false]
  constructor
  · rintro ⟨hidentity, hrevision, hedge, hbinding⟩
    exact ⟨hidentity, hrevision, hedge, hbinding⟩
  · intro h
    exact ⟨h.identity, h.revision, h.edge, h.binding⟩

/-- An update keeps the request of a row. -/
theorem requestId_of_identity (h : new.identity = old.identity) : new.requestId = old.requestId := by
  simpa [identity] using congrArg StagingRow.requestId h

/-- What the decoding of a row needs besides what the checks of the table say. -/
structure Valid (row : StagingRow) : Prop where
  requestId : CanonicalUuid4 row.requestId
  bundleName : matchBundle row.bundleName = some ⟨row.role, row.requestId, "stage"⟩
  sourceSha256 : Sha256Hex row.sourceSha256
  leaseSha256 : Sha256Hex row.leaseSha256
  publisherBootId : CanonicalBoot row.publisherBootId
  createdAtUtc : row.createdAtUtc ≠ ""
  jobId : row.jobId ≠ some ""

/-- A row that the table accepts is decoded. -/
theorem exists_decode {row : StagingRow} (hchecks : row.Checks) (hvalid : row.Valid) :
  ∃ record, row.decode = .ok record
  := by
  have hidentity : PayloadIdentityV1.Fields.postInit
      ⟨row.payloadDevice, row.payloadInode, row.payloadSizeBytes, row.sourceSha256⟩ = .ok () := by
    apply PayloadIdentityV1.Fields.postInit_eq_ok_iff.mpr
    exact ⟨hchecks.payloadDevice, hchecks.payloadInode, hchecks.payloadSizeBytes,
      hvalid.sourceSha256⟩
  obtain ⟨payload, hpayload⟩ := acceptIf_isOk_iff.mpr hidentity
  simp only [decode, Except.bind_eq_ok_iff]
  rw [exists_comm]
  refine ⟨payload, ?_⟩
  rw [exists_and_left]
  refine ⟨hpayload, ?_⟩
  apply acceptIf_isOk_iff.mpr
  apply StagingAdmissionRecordV1.Fields.postInit_eq_ok_iff.mpr
  constructor
  · exact hchecks.schemaVersion
  · exact hvalid.requestId
  · exact hvalid.bundleName
  · exact hvalid.sourceSha256
  · exact hvalid.leaseSha256
  · exact hvalid.publisherBootId
  · exact hchecks.published
  · exact hchecks.deadline
  · exact hchecks.revision
  · apply StagingAdmissionRecordV1.Fields.checkJob_eq_ok_iff.mpr
    exact ⟨hchecks.bound, hchecks.unbound, hvalid.jobId⟩
  · apply StagingAdmissionRecordV1.Fields.checkRecovery_eq_ok_iff.mpr
    exact hchecks.recovery
  · exact hvalid.createdAtUtc

/-- The record of a row has the fields of the row. -/
theorem of_decode {row : StagingRow} {record : StagingAdmissionRecordV1}
    (h : row.decode = .ok record) :
  ofRecord record.val = row
  := by
  simp only [decode, Except.bind_eq_ok_iff] at h
  obtain ⟨payload, hpayload, hrecord⟩ := h
  have hvalue := acceptIf_eq_ok_iff.mp hrecord
  have hidentity := acceptIf_eq_ok_iff.mp hpayload
  simp [ofRecord, hvalue, hidentity]

/-- The payload of the record of a row has the contents of the source. -/
theorem payloadIdentity_of_decode {row : StagingRow} {record : StagingAdmissionRecordV1}
    (h : row.decode = .ok record) :
  record.val.payloadIdentity.val =
    ⟨row.payloadDevice, row.payloadInode, row.payloadSizeBytes, row.sourceSha256⟩
  := by
  simp only [decode, Except.bind_eq_ok_iff] at h
  obtain ⟨payload, hpayload, hrecord⟩ := h
  rw [acceptIf_eq_ok_iff.mp hrecord]
  exact acceptIf_eq_ok_iff.mp hpayload

/-- The row of a record is valid. -/
theorem valid_ofRecord (record : StagingAdmissionRecordV1) : (ofRecord record.val).Valid := by
  have h := StagingAdmissionRecordV1.Fields.postInit_eq_ok_iff.mp record.property
  constructor
  · exact h.requestId
  · exact h.bundleName
  · exact h.sourceSha256
  · exact h.leaseSha256
  · exact h.publisherBootId
  · exact h.createdAtUtc
  · exact (StagingAdmissionRecordV1.Fields.checkJob_eq_ok_iff.mp h.job).2.2

/-- An update keeps a row valid, when the job it binds has an identifier. -/
theorem Valid.of_identity (h : old.Valid) (hidentity : new.identity = old.identity)
    (hjob : new.jobId ≠ some "") :
  new.Valid
  := by
  simp only [identity, StagingRow.mk.injEq] at hidentity
  obtain ⟨-, hrequest, hrole, hbundle, -, -, -, hsource, hlease, hboot, -, -, -, -, -, hcreated,
    -, -⟩ := hidentity
  constructor
  · rw [hrequest]
    exact h.requestId
  · rw [hbundle, hrole, hrequest]
    exact h.bundleName
  · rw [hsource]
    exact h.sourceSha256
  · rw [hlease]
    exact h.leaseSha256
  · rw [hboot]
    exact h.publisherBootId
  · rw [hcreated]
    exact h.createdAtUtc
  · exact hjob

end StagingRow

namespace StagedDatabase

variable {db db' : StagedDatabase} {requestId : String} {revision : Int}
  {expected result : StagingAdmissionState} {recoveryCode : Option StagingRecoveryReasonCode}
  {now : String}

/-- A row is accepted beside others. -/
structure Accepts (db : StagedDatabase) (others : List StagingRow) (row : StagingRow) : Prop where
  checks : row.Checks
  bundleName : ∀ other ∈ others, other.bundleName ≠ row.bundleName
  jobId : row.jobId ≠ none → ∀ other ∈ others, other.jobId ≠ row.jobId
  job : ∀ j, row.jobId = some j → ∃ job ∈ db.shared.tables.jobs, job.jobId = j

/-- A row that passes the constraints is accepted. -/
theorem accepts_of_checkRow {others : List StagingRow} {row : StagingRow}
    (h : db.checkRow others row = .ok ()) :
  db.Accepts others row
  := by
  simp only [checkRow, Except.unit_bind_eq_ok_iff, rejectIf_eq_ok_iff, not_and, not_exists,
    not_not, not_forall, ne_eq] at h
  obtain ⟨hchecks, hbundle, hjob, hforeign⟩ := h
  constructor
  · exact hchecks
  · exact hbundle
  · exact hjob
  · intro j hj
    obtain ⟨job, hmem, heq⟩ := hforeign (by simp [hj])
    use job, hmem
    rw [hj] at heq
    simpa using heq

/-- A row was put in the place of the row of its request. -/
structure Replaced (db : StagedDatabase) (old new : StagingRow) (db' : StagedDatabase) : Prop where
  mem : old ∈ db.staging
  advances : old.Advances new
  accepts : db.Accepts (db.staging.rows.filter fun other => other.requestId ≠ old.requestId) new
  database : db' = { db with staging := db.staging.set new }

/-- An update that finds its row replaces it. -/
theorem replaced_of_updateStaging {change : StagingRow → StagingRow}
    (h : db.updateStaging requestId expected revision change = .ok (1, db')) :
  ∃ old, old.requestId = requestId ∧ old.state = expected ∧ old.revision = revision ∧
    db.Replaced old (change old) db'
  := by
  unfold updateStaging at h
  cases hget : db.staging.get? requestId with
  | none => simp [hget] at h
  | some row =>
      obtain ⟨hmem, hid⟩ := Table.get?_eq_some_iff.mp hget
      simp only [hget] at h
      split at h
      · next hguard =>
          simp only [Except.unit_bind_eq_ok_iff, Except.pure_eq_ok_iff, Prod.mk.injEq, true_and] at h
          obtain ⟨htriggers, hcheck, rfl⟩ := h
          use row, hid, hguard.1, hguard.2
          constructor
          · exact hmem
          · exact StagingRow.triggers_eq_ok_iff.mp htriggers
          · rw [hid]
            exact accepts_of_checkRow hcheck
          · rfl
      · simp at h

/-- The rows after a replacement. -/
theorem Replaced.mem_iff {old new row : StagingRow} (h : db.Replaced old new db') :
  row ∈ db'.staging ↔ row = new ∨ (row ∈ db.staging ∧ row.requestId ≠ new.requestId)
  := by
  have hid := StagingRow.requestId_of_identity h.advances.identity
  rw [h.database, Table.mem_set]
  constructor
  · rintro (⟨rfl, -⟩ | ⟨hmem, hne⟩)
    · left
      rfl
    · right
      exact ⟨hmem, hne⟩
  · rintro (rfl | ⟨hmem, hne⟩)
    · left
      exact ⟨rfl, old, h.mem, hid.symm⟩
    · right
      exact ⟨hmem, hne⟩

/-- The replaced row is the one that is read afterwards. -/
theorem Replaced.get? {old new : StagingRow} (h : db.Replaced old new db') :
  db'.staging.get? old.requestId = some new
  := by
  apply Table.get?_eq_some_iff.mpr
  use h.mem_iff.mpr (.inl rfl)
  exact StagingRow.requestId_of_identity h.advances.identity

/-- A change of state replaces the row of the request. -/
theorem replaced_of_transitionRow {row : StagingRow}
    (h : db.transitionRow requestId revision expected result recoveryCode now = .ok (row, db')) :
  ∃ old, old.requestId = requestId ∧ old.state = expected ∧ old.revision = revision ∧
    row = transitioned result recoveryCode now old ∧ db.Replaced old row db'
  := by
  simp only [transitionRow, Except.bind_eq_ok_iff, Except.exists_unit_iff, rejectIf_eq_ok_iff,
    not_not, ne_eq] at h
  obtain ⟨⟨n, db₁⟩, hupdate, hcount, hread⟩ := h
  simp only at hcount hread
  subst hcount
  obtain ⟨old, hid, hstate, hrevision, hreplaced⟩ := replaced_of_updateStaging hupdate
  have hget := hreplaced.get?
  rw [hid] at hget
  simp only [hget, Except.pure_eq_ok_iff, Prod.mk.injEq] at hread
  obtain ⟨rfl, rfl⟩ := hread
  exact ⟨old, hid, hstate, hrevision, rfl, hreplaced⟩

/-- A change of state does nothing, or replaces the row of the request. -/
theorem transitionStaging_cases (db : StagedDatabase) (requestId : String) (revision : Int)
    (expected result : StagingAdmissionState) (recoveryCode : Option StagingRecoveryReasonCode)
    (now : String) :
  (db.transitionStaging requestId revision expected result recoveryCode now).2 = db ∨
    ∃ old, old.requestId = requestId ∧ old.state = expected ∧ old.revision = revision ∧
      db.Replaced old (transitioned result recoveryCode now old)
        (db.transitionStaging requestId revision expected result recoveryCode now).2
  := by
  unfold transitionStaging
  cases htransition : db.transitionRow requestId revision expected result recoveryCode now with
  | error e =>
      left
      rfl
  | ok updated =>
      right
      obtain ⟨row, db₁⟩ := updated
      obtain ⟨old, hid, hstate, hrevision, rfl, hreplaced⟩ := replaced_of_transitionRow htransition
      exact ⟨old, hid, hstate, hrevision, hreplaced⟩

/-- A request that is registered gets a row, and had none. -/
structure Registered (db : StagedDatabase) (row : StagingRow) (db' : StagedDatabase) : Prop where
  state : row.state = .requestDecoded
  valid : row.Valid
  accepts : db.Accepts db.staging.rows row
  table : db.staging.insert? row = some db'.staging
  shared : db'.shared = db.shared

/-- The registration of a request inserts its row. -/
theorem registered_of_registerDecodedStaging {record : StagingAdmissionRecordV1}
    (h : db.registerDecodedStaging record = .ok db') :
  db.Registered (StagingRow.ofRecord record.val) db'
  := by
  obtain ⟨fields, hfields⟩ := record
  simp only [registerDecodedStaging, insertStaging, Except.bind_eq_ok_iff, Except.exists_unit_iff,
    rejectIf_eq_ok_iff, StagingError.stored_eq_ok_iff, SharedDatabase.insertUnique_eq_ok_iff,
    Except.pure_eq_ok_iff, not_not, ne_eq] at h
  obtain ⟨hstate, -, hcheck, staging, hinsert, rfl⟩ := h
  constructor
  · exact hstate
  · exact StagingRow.valid_ofRecord ⟨fields, hfields⟩
  · exact accepts_of_checkRow hcheck
  · exact hinsert
  · rfl

/-- A new job is inserted into the table of the jobs. -/
theorem jobs_of_createJob {shared shared' : SharedDatabase} {job : JobRecord}
    {artifacts : List ArtifactRef} {event : JobEvent} {audit : AuditRecord} {recordedAt : Timestamp}
    (h : shared.createJob job artifacts event audit recordedAt = .ok shared') :
  shared.tables.jobs.insert? job.val = some shared'.tables.jobs
  := by
  simp only [SharedDatabase.createJob, Except.bind_eq_ok_iff, Except.exists_unit_iff,
    reported_eq_ok_iff, rejectIf_eq_ok_iff, SharedDatabase.insertUnique_eq_ok_iff] at h
  obtain ⟨-, hmatch, -, jobs, hjobs, db₁, hartifacts, hrecord⟩ := h
  obtain ⟨-, hsame, -⟩ := SharedDatabase.logged_of_recordEvent hrecord hmatch
  rw [hsame, SharedDatabase.tables_of_insertArtifacts hartifacts]
  exact hjobs

/-- The job of a request is stored, and its bundle is admitted with it. -/
structure Admitted (db : StagedDatabase) (job : JobRecord) (old new : StagingRow)
    (db' : StagedDatabase) : Prop where
  state : old.state = .claimed
  admitted : new.state = .durablyAdmitted
  jobId : new.jobId = some job.val.jobId
  jobs : db.shared.tables.jobs.insert? job.val = some db'.shared.tables.jobs
  replaced : Replaced ⟨db'.shared, db.staging⟩ old new db'

/-- The job and the admission are written together. -/
theorem admitted_of_createJobWithStaging {job : JobRecord} {artifacts : List ArtifactRef}
    {event : JobEvent} {audit : AuditRecord} {recordedAt : Timestamp}
    {record : StagingAdmissionRecordV1}
    (h : db.createJobWithStaging job artifacts event audit recordedAt requestId revision now =
      .ok (record, db')) :
  ∃ old, old.requestId = requestId ∧ old.revision = revision ∧
    db.Admitted job old (admitted job.val.jobId now old) db'
  := by
  obtain ⟨fields, hfields⟩ := job
  simp only [createJobWithStaging, Except.bind_eq_ok_iff, Except.exists_unit_iff,
    rejectIf_eq_ok_iff, StagingError.stored_eq_ok_iff, not_not, ne_eq] at h
  obtain ⟨-, -, -, shared, hcreate, ⟨n, db₁⟩, hupdate, hcount, hread⟩ := h
  simp only at hcount hread
  subst hcount
  obtain ⟨old, hid, hstate, hrevision, hreplaced⟩ := replaced_of_updateStaging hupdate
  simp only [Except.pure_eq_ok_iff, Prod.mk.injEq] at hread
  obtain ⟨_, -, rfl, rfl⟩ := hread
  use old, hid, hrevision
  have hshared : db₁.shared = shared := by rw [hreplaced.database]
  constructor
  · exact hstate
  · rfl
  · rfl
  · rw [hshared]
    exact jobs_of_createJob hcreate
  · rw [hshared]
    exact hreplaced

end StagedDatabase

/-! ### Runs -/

/-- The world of both repositories with the admissions, and the changes of rows that were
committed, each with the row before it. -/
structure StagedWorld where
  world : World
  staging : Table String StagingRow.requestId
  changes : List (Option StagingRow × StagingRow)

namespace StagedWorld

open StagedDatabase (Registered Replaced Admitted transitioned)

/-- The database of a world. -/
def db (w : StagedWorld) : StagedDatabase := ⟨w.world.db, w.staging⟩

/-- The world of a database after a transaction, with the change of the row of a request. -/
def commit (w : StagedWorld) (copies : List JobRecord) (requestId : String) (db : StagedDatabase) :
    StagedWorld where
  world := ⟨db.shared, copies⟩
  staging := db.staging
  changes :=
    match db.staging.get? requestId with
    | none => w.changes
    | some row =>
        if w.staging.get? requestId = some row then w.changes
        else (w.staging.get? requestId, row) :: w.changes

/-- The record of a request that was decoded: what its lease says of the bundle. -/
def decodedFields (requestId : String) (role : ClientDataRole) (bundleName : String)
    (lease : StagingLeaseV1) (leaseSha256 now : String) : StagingAdmissionRecordV1.Fields where
  requestId := requestId
  role := role
  bundleName := bundleName
  payloadIdentity := lease.val.payloadIdentity
  sourceSha256 := lease.val.sourceSha256
  leaseSha256 := leaseSha256
  publisherBootId := lease.val.publisherBootId
  publishedMonotonicNs := lease.val.publishedMonotonicNs
  deadlineMonotonicNs := lease.val.deadlineMonotonicNs
  state := .requestDecoded
  jobId := none
  revision := 0
  createdAtUtc := now
  updatedAtUtc := now
  recoveryCode := none
  schemaVersion := 1

/-- One transaction. An operation on the admissions is made with any arguments; when it fails,
is rolled back or crashes, the world stays as it is. -/
inductive Step : StagedWorld → StagedWorld → Prop
  /-- The transaction fails, is rolled back or crashes. -/
  | rolledBack (w : StagedWorld) : Step w w
  /-- A decoded request is registered. -/
  | register {w : StagedWorld} {db : StagedDatabase} (requestId : String) (role : ClientDataRole)
      (bundleName : String) (lease : StagingLeaseV1) (leaseSha256 now : String)
      (record : StagingAdmissionRecordV1)
      (hrecord : record.val = decodedFields requestId role bundleName lease leaseSha256 now)
      (h : w.db.registerDecodedStaging record = .ok db) :
      Step w (w.commit w.world.copies requestId db)
  | claim {w : StagedWorld} (requestId : String) (expectedRevision : Int) (now : String) :
      Step w (w.commit w.world.copies requestId
        (w.db.markStagingClaimed requestId expectedRevision now).2)
  /-- The job of a request is stored with its admission, and the chain gets a copy of it. -/
  | createJob {w : StagedWorld} {db : StagedDatabase} (job : JobRecord) (artifacts : List ArtifactRef)
      (event : JobEvent) (audit : AuditRecord) (recordedAt : Timestamp) (requestId : String)
      (expectedRevision : Int) (now : String) (record : StagingAdmissionRecordV1)
      (h : w.db.createJobWithStaging job artifacts event audit recordedAt requestId
        expectedRevision now = .ok (record, db)) :
      Step w (w.commit (job :: w.world.copies) requestId db)
  | consume {w : StagedWorld} (requestId : String) (expectedRevision : Int) (now : String) :
      Step w (w.commit w.world.copies requestId
        (w.db.markStagingConsumed requestId expectedRevision now).2)
  /-- Recovery is recorded. The state that it compares was read in an earlier statement. -/
  | recover {w : StagedWorld} (requestId : String) (expectedRevision : Int)
      (read : StagingAdmissionState) (recoveryCode : StagingRecoveryReasonCode)
      (quarantined : Bool) (now : String) :
      Step w (w.commit w.world.copies requestId
        (w.db.recoverStaging requestId expectedRevision read recoveryCode quarantined now).2)
  /-- One of both repositories makes a step of its own. -/
  | other {w : StagedWorld} (world : World) (h : World.Step w.world world) :
      Step w { w with world := world }

/-- The world of a new database. -/
def empty : StagedWorld := ⟨World.empty, .empty _, []⟩

/-- A world that a run reaches from a new database. -/
def Reachable (w : StagedWorld) : Prop := Relation.ReflTransGen Step empty w

/-! ### What a step does -/

/-- What a step does to the admissions. -/
inductive Effect (w w' : StagedWorld) : Prop
  /-- The admissions are left as they are. -/
  | quiet (staging : w'.staging = w.staging) (changes : w'.changes = w.changes)
  | registered (row : StagingRow) (revision : row.revision = 0)
      (registered : w.db.Registered row w'.db) (changes : w'.changes = (none, row) :: w.changes)
  /-- A row advances, and binds no job. -/
  | replaced (old new : StagingRow) (jobId : new.jobId = old.jobId)
      (admitted : new.state ≠ .durablyAdmitted) (shared : w'.world.db = w.world.db)
      (replaced : w.db.Replaced old new w'.db) (changes : w'.changes = (some old, new) :: w.changes)
  /-- A row advances with the job that it binds. -/
  | admitted (job : JobRecord) (old new : StagingRow) (admitted : w.db.Admitted job old new w'.db)
      (changes : w'.changes = (some old, new) :: w.changes)

variable {w w' : StagedWorld}

/-- The change that is noted when a row is replaced. -/
theorem changes_commit {copies : List JobRecord} {db : StagedDatabase} {old new : StagingRow}
    {requestId : String} (hid : old.requestId = requestId) (hmem : old ∈ w.staging)
    (hadvances : old.Advances new) (hget : db.staging.get? requestId = some new) :
  (w.commit copies requestId db).changes = (some old, new) :: w.changes
  := by
  have hold : w.staging.get? requestId = some old := Table.get?_eq_some_iff.mpr ⟨hmem, hid⟩
  have hne : old ≠ new := by
    rintro rfl
    have hrevision := hadvances.revision
    omega
  simp only [commit, hget, hold]
  rw [if_neg]
  intro heq
  apply hne (Option.some.inj heq)

/-- The effect of a change of state that binds no job. -/
theorem effect_of_transitionStaging {requestId : String} {revision : Int}
    {expected result : StagingAdmissionState} {recoveryCode : Option StagingRecoveryReasonCode}
    {now : String} (hresult : result ≠ .durablyAdmitted) :
  Effect w (w.commit w.world.copies requestId
    (w.db.transitionStaging requestId revision expected result recoveryCode now).2)
  := by
  obtain hsame | ⟨old, hid, -, -, hreplaced⟩ := StagedDatabase.transitionStaging_cases w.db
    requestId revision expected result recoveryCode now
  · rw [hsame]
    apply Effect.quiet
    · rfl
    · simp only [commit, StagedWorld.db]
      split
      · rfl
      · next row hget => rw [if_pos hget]
  · have hget := hreplaced.get?
    rw [hid] at hget
    apply Effect.replaced old (transitioned result recoveryCode now old)
    · rfl
    · exact hresult
    · rw [hreplaced.database]
      rfl
    · exact hreplaced
    · exact changes_commit hid hreplaced.mem hreplaced.advances hget

/-- The effect of a step. -/
theorem Step.effect (h : Step w w') : Effect w w' := by
  cases h with
  | rolledBack => exact .quiet rfl rfl
  | @register db requestId role bundleName lease leaseSha256 now record hrecord h =>
      have hregistered := StagedDatabase.registered_of_registerDecodedStaging h
      have hid : (StagingRow.ofRecord record.val).requestId = requestId := by
        simp [StagingRow.ofRecord, hrecord, decodedFields]
      apply Effect.registered (StagingRow.ofRecord record.val)
      · simp [StagingRow.ofRecord, hrecord, decodedFields]
      · exact hregistered
      · obtain ⟨hfresh, hrows⟩ := Table.insert?_eq_some_iff.mp hregistered.table
        have hnone : w.staging.get? requestId = none := by
          apply Table.get?_eq_none_iff.mpr
          intro row hrow
          rw [← hid]
          exact hfresh row hrow
        have hsome : db.staging.get? requestId = some (StagingRow.ofRecord record.val) := by
          apply Table.get?_eq_some_iff.mpr
          refine ⟨(Table.mem_of_insert? hregistered.table).mpr (.inr rfl), hid⟩
        simp only [commit, hsome, hnone, reduceCtorEq, if_false]
  | claim requestId expectedRevision now => exact effect_of_transitionStaging (by decide)
  | createJob job artifacts event audit recordedAt requestId expectedRevision now record h =>
      obtain ⟨old, hid, -, hadmitted⟩ := StagedDatabase.admitted_of_createJobWithStaging h
      have hget := hadmitted.replaced.get?
      rw [hid] at hget
      apply Effect.admitted job old _ hadmitted
      exact changes_commit hid hadmitted.replaced.mem hadmitted.replaced.advances hget
  | consume requestId expectedRevision now => exact effect_of_transitionStaging (by decide)
  | recover requestId expectedRevision read recoveryCode quarantined now =>
      apply effect_of_transitionStaging
      cases quarantined <;> decide
  | other world h => exact .quiet rfl rfl

end StagedWorld

end DrawingMachine
