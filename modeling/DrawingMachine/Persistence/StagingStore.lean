import DrawingMachine.Persistence.JobStore
import DrawingMachine.Staging.Models

/-!
# The admissions of staged bundles

The table of the admissions, with the checks and the triggers of its schema, and the
statements of the repository on it. An admission goes from the decoded request over the claim
of the bundle to the durable job, and ends when the bundle is consumed; it can also be set
aside or need recovery.
-/

namespace DrawingMachine

/-- A row of the table of admissions. -/
structure StagingRow where
  schemaVersion : Int
  requestId : String
  role : ClientDataRole
  bundleName : String
  payloadDevice : Int
  payloadInode : Int
  payloadSizeBytes : Int
  sourceSha256 : String
  leaseSha256 : String
  publisherBootId : String
  publishedMonotonicNs : Int
  deadlineMonotonicNs : Int
  state : StagingAdmissionState
  jobId : Option String
  revision : Int
  createdAtUtc : String
  updatedAtUtc : String
  recoveryCode : Option StagingRecoveryReasonCode
  deriving DecidableEq

namespace StagingRow

/-- The columns of a row that no update may change. -/
def identity (row : StagingRow) : StagingRow :=
  { row with
    state := .requestDecoded
    jobId := none
    revision := 0
    updatedAtUtc := ""
    recoveryCode := none }

/-- The row of a record. -/
def ofRecord (r : StagingAdmissionRecordV1.Fields) : StagingRow where
  schemaVersion := r.schemaVersion
  requestId := r.requestId
  role := r.role
  bundleName := r.bundleName
  payloadDevice := r.payloadIdentity.val.device
  payloadInode := r.payloadIdentity.val.inode
  payloadSizeBytes := r.payloadIdentity.val.sizeBytes
  sourceSha256 := r.sourceSha256
  leaseSha256 := r.leaseSha256
  publisherBootId := r.publisherBootId
  publishedMonotonicNs := r.publishedMonotonicNs
  deadlineMonotonicNs := r.deadlineMonotonicNs
  state := r.state
  jobId := r.jobId
  revision := r.revision
  createdAtUtc := r.createdAtUtc
  updatedAtUtc := r.updatedAtUtc
  recoveryCode := r.recoveryCode

/-- The record of a row. The contents of the payload are those of the source. -/
def decode (row : StagingRow) : Except ContractError StagingAdmissionRecordV1 := do
  let payloadIdentity ← PayloadIdentityV1.build
    ⟨row.payloadDevice, row.payloadInode, row.payloadSizeBytes, row.sourceSha256⟩
  StagingAdmissionRecordV1.build {
    requestId := row.requestId
    role := row.role
    bundleName := row.bundleName
    payloadIdentity := payloadIdentity
    sourceSha256 := row.sourceSha256
    leaseSha256 := row.leaseSha256
    publisherBootId := row.publisherBootId
    publishedMonotonicNs := row.publishedMonotonicNs
    deadlineMonotonicNs := row.deadlineMonotonicNs
    state := row.state
    jobId := row.jobId
    revision := row.revision
    createdAtUtc := row.createdAtUtc
    updatedAtUtc := row.updatedAtUtc
    recoveryCode := row.recoveryCode
    schemaVersion := row.schemaVersion }

/-! ### The schema -/

/-- The numbers of a row are integers of the database. -/
def Bounded (row : StagingRow) : Prop :=
  ∀ n ∈ [row.schemaVersion, row.payloadDevice, row.payloadInode, row.payloadSizeBytes,
    row.publishedMonotonicNs, row.deadlineMonotonicNs, row.revision], -2 ^ 63 ≤ n ∧ n < 2 ^ 63

instance (row : StagingRow) : Decidable row.Bounded :=
  inferInstanceAs (Decidable (∀ _ ∈ _, _))

/-- The checks of the table. -/
structure Checks (row : StagingRow) : Prop where
  schemaVersion : row.schemaVersion = 1
  payloadDevice : 0 ≤ row.payloadDevice
  payloadInode : 0 < row.payloadInode
  payloadSizeBytes : 0 ≤ row.payloadSizeBytes
  sourceSha256 : row.sourceSha256.toList.length = 64
  leaseSha256 : row.leaseSha256.toList.length = 64
  published : 0 ≤ row.publishedMonotonicNs
  deadline : row.publishedMonotonicNs < row.deadlineMonotonicNs
  revision : 0 ≤ row.revision
  bound : row.state = .durablyAdmitted ∨ row.state = .consumed → row.jobId ≠ none
  unbound : row.state = .requestDecoded ∨ row.state = .claimed ∨ row.state = .quarantined →
    row.jobId = none
  recovery : row.state = .recoveryRequired ↔ row.recoveryCode ≠ none

instance (row : StagingRow) : Decidable row.Checks :=
  decidable_of_iff
    (row.schemaVersion = 1 ∧ 0 ≤ row.payloadDevice ∧ 0 < row.payloadInode ∧
      0 ≤ row.payloadSizeBytes ∧ row.sourceSha256.toList.length = 64 ∧
      row.leaseSha256.toList.length = 64 ∧ 0 ≤ row.publishedMonotonicNs ∧
      row.publishedMonotonicNs < row.deadlineMonotonicNs ∧ 0 ≤ row.revision ∧
      (row.state = .durablyAdmitted ∨ row.state = .consumed → row.jobId ≠ none) ∧
      (row.state = .requestDecoded ∨ row.state = .claimed ∨ row.state = .quarantined →
        row.jobId = none) ∧
      (row.state = .recoveryRequired ↔ row.recoveryCode ≠ none))
    ⟨fun ⟨h₁, h₂, h₃, h₄, h₅, h₆, h₇, h₈, h₉, h₁₀, h₁₁, h₁₂⟩ =>
        ⟨h₁, h₂, h₃, h₄, h₅, h₆, h₇, h₈, h₉, h₁₀, h₁₁, h₁₂⟩,
      fun ⟨h₁, h₂, h₃, h₄, h₅, h₆, h₇, h₈, h₉, h₁₀, h₁₁, h₁₂⟩ =>
        ⟨h₁, h₂, h₃, h₄, h₅, h₆, h₇, h₈, h₉, h₁₀, h₁₁, h₁₂⟩⟩

/-- The edges that the trigger of the table allows. -/
def edge : StagingAdmissionState → StagingAdmissionState → Bool
  | .requestDecoded, .claimed => true
  | .requestDecoded, .quarantined => true
  | .requestDecoded, .recoveryRequired => true
  | .claimed, .durablyAdmitted => true
  | .claimed, .quarantined => true
  | .claimed, .recoveryRequired => true
  | .durablyAdmitted, .consumed => true
  | .durablyAdmitted, .recoveryRequired => true
  | .quarantined, .recoveryRequired => true
  | _, _ => false

/-- The triggers of an update. -/
def triggers (old new : StagingRow) : Except StoreError Unit := do
  rejectIf (new.identity ≠ old.identity) (.integrity "staging admission identity is immutable")
  rejectIf (new.revision ≠ old.revision + 1)
    (.integrity "staging admission revision must advance by exactly one")
  rejectIf (edge old.state new.state = false)
    (.integrity "staging admission state transition is illegal")
  rejectIf (old.jobId ≠ none ∧ new.jobId ≠ old.jobId)
    (.integrity "staging admission job binding is immutable")

end StagingRow

/-- The database with the table of admissions. -/
structure StagedDatabase where
  shared : SharedDatabase
  staging : Table String StagingRow.requestId

/-- How an operation on the admissions fails. -/
inductive StagingError where
  | store (e : StoreError)
  | contract (e : ContractError)
  | overflow
  deriving DecidableEq, Repr

/-- A statement whose error is one of the database. -/
def StagingError.stored {α : Type} (x : Except StoreError α) : Except StagingError α :=
  x.mapError StagingError.store

/-- A constructor whose error is one of the port. -/
def StagingError.decoded {α : Type} (x : Except ContractError α) : Except StagingError α :=
  x.mapError StagingError.contract

/-- A statement of the database succeeds as it does by itself. -/
@[simp] theorem StagingError.stored_eq_ok_iff {α : Type} {x : Except StoreError α} {a : α} :
  StagingError.stored x = .ok a ↔ x = .ok a
  := by
  cases x with
  | error e => simp [StagingError.stored, Except.mapError]
  | ok b => simp [StagingError.stored, Except.mapError]

/-- A constructor of the port succeeds as it does by itself. -/
@[simp] theorem StagingError.decoded_eq_ok_iff {α : Type} {x : Except ContractError α} {a : α} :
  StagingError.decoded x = .ok a ↔ x = .ok a
  := by
  cases x with
  | error e => simp [StagingError.decoded, Except.mapError]
  | ok b => simp [StagingError.decoded, Except.mapError]

namespace StagedDatabase

open StagingError (stored decoded)

variable (db : StagedDatabase)

/-- A failed check of the repository. -/
def stagingInconsistent (message : String) : StoreError :=
  .payload (repositoryError "REPOSITORY_CONSISTENCY_ERROR" message)

/-- A failed check of the repository about a job. -/
def jobInconsistent (message jobId : String) : StagingError :=
  .store (.payload (Database.consistencyError message jobId))

/-- The constraints of the table on a row that is written beside the other rows: the checks,
the two unique columns, and the reference to the job. -/
def checkRow (others : List StagingRow) (row : StagingRow) : Except StoreError Unit := do
  rejectIf (¬ row.Checks) (.integrity "CHECK constraint failed: staging_admissions")
  rejectIf (∃ other ∈ others, other.bundleName = row.bundleName)
    (.integrity "UNIQUE constraint failed: staging_admissions.bundle_name")
  rejectIf (row.jobId ≠ none ∧ ∃ other ∈ others, other.jobId = row.jobId)
    (.integrity "UNIQUE constraint failed: staging_admissions.job_id")
  rejectIf (row.jobId ≠ none ∧ ∀ job ∈ db.shared.tables.jobs.rows, some job.jobId ≠ row.jobId)
    (.integrity "FOREIGN KEY constraint failed")

/-- Insert a row. -/
def insertStaging (row : StagingRow) : Except StagingError StagedDatabase := do
  rejectIf (¬ row.Bounded) .overflow
  stored (db.checkRow db.staging.rows row)
  let staging ← stored (SharedDatabase.insertUnique db.staging row
    "UNIQUE constraint failed: staging_admissions.request_id")
  return { db with staging := staging }

/-- Update the row of a request, when it is in a state and at a revision; the number of rows
that are updated comes back. -/
def updateStaging (requestId : String) (state : StagingAdmissionState) (revision : Int)
    (change : StagingRow → StagingRow) : Except StoreError (Nat × StagedDatabase) :=
  match db.staging.get? requestId with
  | none => .ok (0, db)
  | some row =>
      if row.state = state ∧ row.revision = revision then do
        StagingRow.triggers row (change row)
        db.checkRow (db.staging.rows.filter fun other => other.requestId ≠ requestId) (change row)
        return (1, { db with staging := db.staging.set (change row) })
      else .ok (0, db)

/-- The admission of a request. -/
def getStagingAdmission (requestId : String) :
    Except StagingError (Option StagingAdmissionRecordV1) :=
  match db.staging.get? requestId with
  | none => .ok none
  | some row => do
      let record ← decoded row.decode
      return some record

/-! ### Operations -/

/-- Register the request of a bundle. -/
def registerDecodedStaging (record : StagingAdmissionRecordV1) :
    Except StagingError StagedDatabase := do
  rejectIf (record.val.state ≠ .requestDecoded)
    (.store (stagingInconsistent
      "decoded staging registration must be an exact REQUEST_DECODED record"))
  db.insertStaging (StagingRow.ofRecord record.val)

/-- The update of a change of state. -/
def transitioned (result : StagingAdmissionState)
    (recoveryCode : Option StagingRecoveryReasonCode) (now : String) (row : StagingRow) :
    StagingRow :=
  { row with
    state := result
    revision := row.revision + 1
    updatedAtUtc := now
    recoveryCode := recoveryCode }

/-- The transaction of a change of state: the row after it, and the database. -/
def transitionRow (requestId : String) (expectedRevision : Int)
    (expected result : StagingAdmissionState) (recoveryCode : Option StagingRecoveryReasonCode)
    (now : String) : Except StoreError (StagingRow × StagedDatabase) := do
  let updated ← db.updateStaging requestId expected expectedRevision
    (transitioned result recoveryCode now)
  rejectIf (updated.1 ≠ 1)
    (stagingInconsistent "staging admission state or revision changed")
  -- The source asserts that the updated row is still there.
  match updated.2.staging.get? requestId with
  | none => .error .abandoned
  | some row => return (row, updated.2)

/-- Change the state of the admission of a request. The transaction is committed before the
row is decoded. -/
def transitionStaging (requestId : String) (expectedRevision : Int)
    (expected result : StagingAdmissionState) (recoveryCode : Option StagingRecoveryReasonCode)
    (now : String) : Except StagingError StagingAdmissionRecordV1 × StagedDatabase :=
  match db.transitionRow requestId expectedRevision expected result recoveryCode now with
  | .error e => (.error (.store e), db)
  | .ok (row, db') => (decoded row.decode, db')

/-- The bundle of a request is claimed. -/
def markStagingClaimed (requestId : String) (expectedRevision : Int) (now : String) :
    Except StagingError StagingAdmissionRecordV1 × StagedDatabase :=
  db.transitionStaging requestId expectedRevision .requestDecoded .claimed none now

/-- The bundle of a request is consumed. -/
def markStagingConsumed (requestId : String) (expectedRevision : Int) (now : String) :
    Except StagingError StagingAdmissionRecordV1 × StagedDatabase :=
  db.transitionStaging requestId expectedRevision .durablyAdmitted .consumed none now

/-- The admission of a request that was read in a state is set aside, or needs recovery. -/
def recoverStaging (requestId : String) (expectedRevision : Int) (read : StagingAdmissionState)
    (recoveryCode : StagingRecoveryReasonCode) (quarantined : Bool) (now : String) :
    Except StagingError StagingAdmissionRecordV1 × StagedDatabase :=
  db.transitionStaging requestId expectedRevision read
    (if quarantined then .quarantined else .recoveryRequired)
    (if quarantined then none else some recoveryCode) now

/-- The admission of a request is set aside, or needs recovery. The state that is compared and
set is read before the transaction. -/
def recordStagingRecovery (requestId : String) (expectedRevision : Int)
    (recoveryCode : StagingRecoveryReasonCode) (quarantined : Bool) (now : String) :
    Except StagingError StagingAdmissionRecordV1 × StagedDatabase :=
  match db.getStagingAdmission requestId with
  | .error e => (.error e, db)
  | .ok none => (.error (.store (stagingInconsistent "staging admission does not exist")), db)
  | .ok (some current) =>
      db.recoverStaging requestId expectedRevision current.val.state recoveryCode quarantined now

/-- The update of the admission of a request with its job. -/
def admitted (jobId now : String) (row : StagingRow) : StagingRow :=
  { row with
    state := .durablyAdmitted
    jobId := some jobId
    revision := row.revision + 1
    updatedAtUtc := now }

/-- The admission of a request, which must be there. -/
def requireStaging (requestId : String) (missing : StagingError) :
    Except StagingError StagingAdmissionRecordV1 :=
  match db.staging.get? requestId with
  | none => .error missing
  | some row => decoded row.decode

/-- Store the job of a request, and admit the bundle of the request with it. -/
def createJobWithStaging (job : JobRecord) (artifacts : List ArtifactRef) (event : JobEvent)
    (audit : AuditRecord) (recordedAt : Timestamp) (requestId : String)
    (expectedStagingRevision : Int) (now : String) :
    Except StagingError (StagingAdmissionRecordV1 × StagedDatabase) := do
  let current ← db.requireStaging requestId
    (jobInconsistent "staging admission does not exist" job.val.jobId)
  rejectIf (current.val.state ≠ .claimed ∨ current.val.revision ≠ expectedStagingRevision)
    (jobInconsistent "staging admission is not the expected claimed revision" job.val.jobId)
  let shared ← stored (db.shared.createJob job artifacts event audit recordedAt)
  let updated ← stored (StagedDatabase.updateStaging { db with shared := shared } requestId .claimed
    expectedStagingRevision (admitted job.val.jobId now))
  rejectIf (updated.1 ≠ 1)
    (jobInconsistent "staging admission changed during atomic job admission" job.val.jobId)
  let record ← updated.2.requireStaging requestId (.store .abandoned)
  return (record, updated.2)

end StagedDatabase

end DrawingMachine
