import DrawingMachine.Application.StagingReconciliation
import DrawingMachine.Base.Durable

/-!
# The submission of a staged bundle

A request names a bundle that its client has left in the drop. The service registers the
request, moves the bundle to the admitted directory, claims it, imports its payload into the
artifact store, commits the job, removes the bundle, and marks it as consumed. Every change of
a directory, of the artifact store or of the database is a write of its own.

The disk is what one request touches: the entries under the name of its bundle, its row, and
the job and the attempt whose identifiers are derived from it. Entries with hidden random names,
which no function looks for, are left out, and so are the permissions and the identities that
are compared to notice a change by another process.
-/

namespace DrawingMachine

/-- A bundle in a directory: its name, the lease with the digest of its file, the file of the
payload and its contents. -/
structure StagedBundle where
  name : String
  lease : StagingLeaseV1
  leaseSha256 : String
  device : Int
  inode : Int
  payload : List UInt8
  deriving DecidableEq

/-- The path of the payload of a bundle under the root of the imports. -/
structure StagedPath where
  role : ClientDataRole
  phase : BundlePhase
  bundleName : String
  deriving DecidableEq

/-- The arguments of the two commands that submit a bundle, besides its path. The assessment is
in canonical JSON. -/
inductive SubmissionArguments where
  | workflow (jobName routeMode : String) (semanticAssessment prompt : Option String)
  | gcodeCheck
  deriving DecidableEq

namespace SubmissionArguments

/-- The role of what is submitted. -/
def role : SubmissionArguments → ClientDataRole
  | .workflow _ _ _ _ => .image
  | .gcodeCheck => .gcode

/-- The kind of the job. -/
def kind : SubmissionArguments → JobKind
  | .workflow _ _ _ _ => .offlineWorkflow
  | .gcodeCheck => .gcodeCheck

/-- The name of the job. A check is named after its file. -/
def jobName : SubmissionArguments → String
  | .workflow name _ _ _ => name
  | .gcodeCheck => "payload"

end SubmissionArguments

/-- A request to submit a bundle, with the digest of its canonical arguments. -/
structure SubmissionRequest where
  requestId : String
  arguments : SubmissionArguments
  path : StagedPath
  envelope : String
  deriving DecidableEq

/-- A job of the database, as far as a replay of its request reads it. -/
structure StagedJob where
  jobId : String
  kind : JobKind
  name : String
  inputPath : StagedPath
  arguments : SubmissionArguments
  artifacts : List ArtifactRef.Fields
  deriving DecidableEq

/-- The directory in which an artifact is staged before it is promoted: absent, empty, with the
directory of the inputs, or with the file in it, as far as it is written. -/
inductive StagedAttempt where
  | absent
  | empty
  | inputs
  | file (contents : List UInt8)
  deriving DecidableEq

/-- What outlives the service. -/
structure StagingDisk where
  envelope : Option String
  admission : Option StagingAdmissionRecordV1
  drop : Option StagedBundle
  admitted : Option StagedBundle
  attempt : StagedAttempt
  promoted : Option (List UInt8)
  jobs : List StagedJob
  marker : Bool
  deriving DecidableEq

/-- What the standard library computes: digests, and the identifiers that are derived from the
names of the requests. -/
structure StagingNames where
  sha256 : List UInt8 → String
  sha256_hex : ∀ contents, Sha256Hex (sha256 contents)
  stagingJobId : String → ClientDataRole → String
  stagingJobId_ne : ∀ requestId role, stagingJobId requestId role ≠ ""

/-- The two clocks at a moment. -/
structure StagingMoment where
  clock : StagingClock
  utc : String
  utc_ne : utc ≠ ""

/-- How a submission fails. -/
inductive SubmissionError where
  | payload (e : ErrorPayload)
  | contract (e : ContractError)
  | integrity (message : String)
  | notFound
  deriving DecidableEq, Repr

namespace SubmissionError

/-- A constructor whose error is one of the port. -/
def decoded {α : Type} (x : Except ContractError α) : Except SubmissionError α :=
  x.mapError SubmissionError.contract

/-- A constructor of the port succeeds as it does by itself. -/
@[simp] theorem decoded_eq_ok_iff {α : Type} {x : Except ContractError α} {a : α} :
  decoded x = .ok a ↔ x = .ok a
  := by
  cases x with
  | error e => simp [decoded, Except.mapError]
  | ok b => simp [decoded, Except.mapError]

/-- A check of the client data fails. -/
def staging (message code : String) : SubmissionError := .payload (denied code message)

/-- The repository refuses. -/
def inconsistent (message : String) : SubmissionError :=
  .payload (repositoryError "REPOSITORY_CONSISTENCY_ERROR" message)

/-- The service or the chain refuses. -/
def service (code message : String) : SubmissionError :=
  .payload ⟨code, .service, message, false, []⟩

/-- The artifact store refuses. -/
def artifact (message code : String) : SubmissionError :=
  .payload ⟨code, .validation, message, false, []⟩

/-- The code of an error, when it is one of the program. -/
def code : SubmissionError → Option String
  | .payload e => some e.code
  | .contract _ => none
  | .integrity _ => none
  | .notFound => none

end SubmissionError

open SubmissionError (decoded staging inconsistent)

/-- A program over the disk. -/
abbrev Staged (α : Type) := Durable StagingDisk SubmissionError α

namespace StagingDisk

variable (d : StagingDisk)

/-- The entry of a directory under the name of the bundle. -/
def directory : BundlePhase → Option StagedBundle
  | .drop => d.drop
  | .admitted => d.admitted

/-- The bundle of a name in a directory. -/
def bundle (phase : BundlePhase) (name : String) : Option StagedBundle :=
  (d.directory phase).filter fun b => b.name = name

/-- The entry of a directory is gone. -/
def detach : BundlePhase → StagingDisk
  | .drop => { d with drop := none }
  | .admitted => { d with admitted := none }

/-- The admission of a request. -/
def getStagingAdmission (requestId : String) : Option StagingAdmissionRecordV1 :=
  d.admission.filter fun a => a.val.requestId = requestId

/-- The job of an identifier. -/
def getJob (jobId : String) : Option StagedJob :=
  d.jobs.find? fun job => job.jobId = jobId

end StagingDisk

/-! ### The repository -/

namespace StagedRepository

/-- Bind the digest of the arguments to the request, unless there is one already. -/
def bindStagingRequestEnvelope (envelope : String) : Staged String := do
  Durable.inspect fun _ => rejectIf (¬ Sha256Hex envelope)
    (inconsistent "staging request-envelope binding is invalid")
  match ← Durable.inspect fun d => .ok d.envelope with
  | none => do
      Durable.write fun d => { d with envelope := some envelope }
      return envelope
  | some bound => return bound

/-- Register a decoded request. -/
def registerDecodedStaging (record : StagingAdmissionRecordV1) : Staged Unit := do
  Durable.inspect fun d => do
    rejectIf (record.val.state ≠ .requestDecoded)
      (inconsistent "decoded staging registration must be an exact REQUEST_DECODED record")
    rejectIf (d.admission ≠ none)
      (.integrity "UNIQUE constraint failed: staging_admissions.request_id")
  Durable.write fun d => { d with admission := some record }

/-- The record of an admission after a change of state. -/
def advanced (requestId : String) (revision : Int) (expected result : StagingAdmissionState)
    (jobId : Option String) (utc : String) (d : StagingDisk) :
    Except SubmissionError StagingAdmissionRecordV1 :=
  match d.getStagingAdmission requestId with
  | none => .error (inconsistent "staging admission state or revision changed")
  | some a => do
      rejectIf (a.val.state ≠ expected ∨ a.val.revision ≠ revision)
        (inconsistent "staging admission state or revision changed")
      rejectIf (StagingRow.edge expected result = false)
        (.integrity "staging admission state transition is illegal")
      decoded (StagingAdmissionRecordV1.build
        { a.val with
          state := result
          jobId := jobId
          revision := a.val.revision + 1
          updatedAtUtc := utc })

/-- Change the state of the admission of a request. -/
def transitionStaging (k : StagingMoment) (requestId : String) (revision : Int)
    (expected result : StagingAdmissionState) (jobId : Option String) :
    Staged StagingAdmissionRecordV1 := do
  let record ← Durable.inspect (advanced requestId revision expected result jobId k.utc)
  Durable.write fun d => { d with admission := some record }
  return record

/-- The bundle of a request is claimed. -/
def markStagingClaimed (k : StagingMoment) (requestId : String) (expectedRevision : Int) :
    Staged StagingAdmissionRecordV1 :=
  transitionStaging k requestId expectedRevision .requestDecoded .claimed none

/-- The bundle of an admission with its job is consumed. -/
def markStagingConsumed (k : StagingMoment) (requestId : String) (expectedRevision : Int) :
    Staged StagingAdmissionRecordV1 := do
  let jobId ← Durable.inspect fun d =>
    .ok ((d.getStagingAdmission requestId).bind fun a => a.val.jobId)
  transitionStaging k requestId expectedRevision .durablyAdmitted .consumed jobId

/-- The admission of a request is set aside. -/
def recordStagingRecovery (k : StagingMoment) (a : StagingAdmissionRecordV1) :
    Staged StagingAdmissionRecordV1 :=
  transitionStaging k a.val.requestId a.val.revision a.val.state .quarantined a.val.jobId

/-- Store the job of a request, and admit its bundle in the same transaction. -/
def createJobWithStaging (k : StagingMoment) (job : StagedJob) (requestId : String)
    (expectedRevision : Int) : Staged Unit := do
  let record ← Durable.inspect fun d => do
    rejectIf (d.getJob job.jobId ≠ none) (.integrity "UNIQUE constraint failed: jobs.job_id")
    advanced requestId expectedRevision .claimed .durablyAdmitted (some job.jobId) k.utc d
  Durable.write fun d => { d with admission := some record, jobs := d.jobs ++ [job] }

end StagedRepository

open StagedRepository

/-! ### The artifact store, as far as one request touches it -/

namespace StagedArtifactStore

/-- The name of the artifact of a role, its type, and the largest import. -/
def inputRole : ClientDataRole → String
  | .image => "input_image"
  | .gcode => "gcode"

/-- The media type of the artifact of a role. -/
def mediaType : ClientDataRole → String
  | .image => "image/png"
  | .gcode => "text/x.gcode"

/-- The largest file of a role that is imported. -/
def maxBytes : ClientDataRole → Nat
  | .image => 32 * (1024 * 1024)
  | .gcode => 16 * (1024 * 1024)

/-- The artifact of the input of a request. -/
def inputArtifact (role : ClientDataRole) (requestId sha256 : String) (sizeBytes : Nat) :
    ArtifactRef.Fields where
  role := inputRole role
  relativePath := "artifacts/input-" ++ requestId ++ "/inputs/payload"
  sha256 := sha256
  sizeBytes := sizeBytes
  mediaType := mediaType role

variable (names : StagingNames)

/-- Read a promoted artifact. -/
def readBytes (expected : ArtifactRef.Fields) (maxBytes : Nat) (d : StagingDisk) :
    Except SubmissionError (List UInt8) :=
  match d.promoted with
  | none =>
      .error (.artifact "persisted artifact cannot be read safely" "ARTIFACT_PATH_INVALID")
  | some contents => do
      rejectIf (maxBytes < contents.length)
        (.artifact "persisted artifact cannot be read safely" "ARTIFACT_PATH_INVALID")
      rejectIf (contents.length ≠ expected.sizeBytes ∨
          names.sha256 contents ≠ expected.sha256)
        (.artifact "persisted artifact metadata does not match its durable size and digest"
          "ARTIFACT_VALIDATION_FAILED")
      return contents

/-- The promoted attempt is removed, when it is there with exactly the artifact. -/
def discardPromotedBundle (expected : ArtifactRef.Fields) : Staged Unit := do
  match ← Durable.inspect fun d => .ok d.promoted with
  | none => return ()
  | some contents => do
      Durable.inspect fun _ => rejectIf
        (contents.length ≠ expected.sizeBytes ∨ names.sha256 contents ≠ expected.sha256)
        (.artifact "promoted revocation authority does not match the exact bundle"
          "ARTIFACT_VALIDATION_FAILED")
      Durable.write fun d => { d with promoted := none }

/-- The state of the directory of the attempt is written. -/
def setAttempt (attempt : StagedAttempt) : Staged Unit :=
  Durable.write fun d => { d with attempt := attempt }

/-- The size of a chunk that is read at once. -/
def chunkBytes : Nat := 1024 * 1024

/-- Append a file to its copy, chunk by chunk, until nothing is read. Every round but the last
reads a byte, so that there are at most as many rounds as there are bytes. -/
def copyBytes : Nat → List UInt8 → Staged Unit
  | 0, _ => return ()
  | rounds + 1, source =>
      if source.take chunkBytes = [] then return ()
      else do
        Durable.write fun d =>
          { d with
            attempt := match d.attempt with
              | .file contents => .file (contents ++ source.take chunkBytes)
              | attempt => attempt }
        copyBytes rounds (source.drop chunkBytes)

/-- Copy a file to the directory of the attempt, which must not be there yet. -/
def stageExternalFile (source : List UInt8) (maxBytes : Nat) : Staged Unit := do
  Durable.inspect fun d => do
    rejectIf (maxBytes < source.length)
      (.artifact "external artifact source exceeds the maximum import size"
        "ARTIFACT_PATH_INVALID")
    rejectIf (d.attempt ≠ .absent)
      (.artifact "artifact staging attempt already exists" "ARTIFACT_STAGING_COLLISION")
  setAttempt .empty
  setAttempt .inputs
  setAttempt (.file [])
  copyBytes source.length source

/-- Remove what is left of the directory of an attempt, from the inside. -/
def removeAttempt : StagedAttempt → Staged Unit
  | .absent => return ()
  | .empty => setAttempt .absent
  | .inputs => do
      setAttempt .empty
      setAttempt .absent
  | .file _ => do
      setAttempt .inputs
      setAttempt .empty
      setAttempt .absent

/-- The staged file is promoted. The directory of the attempt is removed after that. -/
def prepareAndPublish (role : ClientDataRole) (requestId : String) :
    Staged ArtifactRef.Fields := do
  let attempt ← Durable.inspect fun d => .ok d.attempt
  match attempt with
  | .file contents => do
      Durable.inspect fun d => rejectIf (d.promoted ≠ none)
        (.artifact "promoted attempt already exists" "ARTIFACT_PROMOTION_COLLISION")
      Durable.write fun d => { d with promoted := some contents }
      removeAttempt attempt
      return inputArtifact role requestId (names.sha256 contents) contents.length
  | _ => Durable.raise (.artifact "artifact staging cannot be opened" "ARTIFACT_PATH_INVALID")

/-- Import a file as the input of a request. -/
def importFile (role : ClientDataRole) (requestId : String) (source : Option (List UInt8)) :
    Staged ArtifactRef.Fields := do
  match source with
  | none => Durable.raise (.artifact "artifact source cannot be opened" "ARTIFACT_PATH_INVALID")
  | some contents => do
      stageExternalFile contents (maxBytes role)
      prepareAndPublish names role requestId

end StagedArtifactStore

open StagedArtifactStore

/-! ### The client data -/

namespace ClientData

variable (names : StagingNames) (k : StagingMoment)

/-- What a bundle has to be for the service. -/
def checkBundle (requestId : String) (role : ClientDataRole) (b : StagedBundle) :
    Except SubmissionError StagedBundle := do
  rejectIf (b.lease.val.state ≠ .dispatchUncertain)
    (staging "decoded staging lease is not dispatch-uncertain" "STAGING_STATE_INVALID")
  rejectIf (b.lease.val.requestId ≠ requestId ∨ b.lease.val.role ≠ role)
    (staging "staging lease authority does not match request" "STAGING_REPLAY_MISMATCH")
  rejectIf (b.lease.val.payloadIdentity.val ≠
      ⟨b.device, b.inode, b.payload.length, names.sha256 b.payload⟩)
    (staging "staging payload identity differs from its lease" "STAGING_IDENTITY_DRIFT")
  return b

/-- The bundle of a path, which must be that of the request in a directory. -/
def validateServiceBundle (requestId : String) (role : ClientDataRole) (path : StagedPath)
    (phase : BundlePhase) (d : StagingDisk) : Except SubmissionError StagedBundle := do
  decoded (canonicalRequestId requestId)
  rejectIf (path.role ≠ role ∨ path.phase ≠ phase)
    (staging "staging path is outside the exact role dropbox" "STAGING_PATH_INVALID")
  let parsed ← decoded (parseBundleName path.bundleName "stage")
  rejectIf (parsed ≠ (role, requestId))
    (staging "staging path name does not bind request and role" "STAGING_PATH_INVALID")
  match d.bundle phase path.bundleName with
  | none => .error .notFound
  | some b => checkBundle names requestId role b

/-- The digest of the arguments must be the one that is bound to the request. -/
def bindRequestEnvelope (r : SubmissionRequest) : Staged Unit := do
  Durable.inspect fun _ => decoded (canonicalRequestId r.requestId)
  let bound ← bindStagingRequestEnvelope r.envelope
  Durable.inspect fun _ => rejectIf (bound ≠ r.envelope)
    (staging "request_id was replayed with different arguments" "STAGING_REPLAY_MISMATCH")

/-- The directory in which the bundle of an admission is looked for. -/
def replayPhase (a : StagingAdmissionRecordV1) : BundlePhase :=
  if a.val.state = .requestDecoded then .drop else .admitted

/-- A replay of the request of an admission must be about its bundle. -/
def validateExistingReplay (a : StagingAdmissionRecordV1) (role : ClientDataRole)
    (path : StagedPath) (d : StagingDisk) : Except SubmissionError Unit := do
  rejectIf (a.val.role ≠ role ∨ path ≠ ⟨role, .drop, a.val.bundleName⟩)
    (staging "request_id was reused for a different staging authority"
      "STAGING_REPLAY_MISMATCH")
  rejectIf (a.val.state = .quarantined ∨ a.val.state = .recoveryRequired)
    (staging "staging replay is blocked by recovery state" "STAGING_STATE_INVALID")
  match d.bundle (replayPhase a) a.val.bundleName with
  | some _ => do
      let b ← validateServiceBundle names a.val.requestId role
        ⟨role, replayPhase a, a.val.bundleName⟩ (replayPhase a) d
      rejectIf (a.val.payloadIdentity ≠ b.lease.val.payloadIdentity ∨
          a.val.sourceSha256 ≠ b.lease.val.sourceSha256 ∨ a.val.leaseSha256 ≠ b.leaseSha256)
        (staging "replayed staging authority differs from its durable record"
          "STAGING_REPLAY_MISMATCH")
  | none => do
      rejectIf (a.val.state = .requestDecoded ∨ a.val.state = .claimed)
        (staging "replayed staging authority is missing before durable admission"
          "STAGING_STATE_INVALID")
      rejectIf ((d.bundle .drop a.val.bundleName).isSome = true)
        (staging "consumed staging authority was recreated" "STAGING_REPLAY_MISMATCH")

/-- Register a decoded request, or check that it is replayed. -/
def registerDecoded (r : SubmissionRequest) : Staged StagingAdmissionRecordV1 := do
  match ← Durable.inspect fun d => .ok (d.getStagingAdmission r.requestId) with
  | some existing => do
      Durable.inspect (validateExistingReplay names existing r.arguments.role r.path)
      return existing
  | none => do
      let b ← Durable.inspect
        (validateServiceBundle names r.requestId r.arguments.role r.path .drop)
      let record ← Durable.inspect fun _ => decoded (StagingAdmissionRecordV1.build
        (StagedWorld.decodedFields r.requestId r.arguments.role r.path.bundleName b.lease
          b.leaseSha256 k.utc))
      registerDecodedStaging record
      return record

/-- Move a bundle that is still the one of its admission, and mark it as claimed. -/
def claimDecoded (r : SubmissionRequest) (current : Option StagingAdmissionRecordV1) :
    Staged StagingAdmissionRecordV1 := do
  let b ← Durable.inspect
    (validateServiceBundle names r.requestId r.arguments.role r.path .drop)
  match current with
  | none =>
      Durable.raise
        (staging "staging request is not decoded and unclaimed" "STAGING_STATE_INVALID")
  | some a => do
      Durable.inspect fun d => do
        rejectIf (a.val.state ≠ .requestDecoded)
          (staging "staging request is not decoded and unclaimed" "STAGING_STATE_INVALID")
        rejectIf (a.val.leaseSha256 ≠ b.leaseSha256 ∨
            a.val.payloadIdentity ≠ b.lease.val.payloadIdentity)
          (staging "staging authority changed before claim" "STAGING_IDENTITY_DRIFT")
        rejectIf (d.admitted ≠ none)
          (staging "staging bundle could not be atomically claimed" "STAGING_CLAIM_FAILED")
      Durable.write fun d => { d with drop := none, admitted := some b }
      markStagingClaimed k r.requestId a.val.revision

/-- Claim the bundle of a request. -/
def claim (r : SubmissionRequest) : Staged StagingAdmissionRecordV1 := do
  let current ← Durable.inspect fun d => .ok (d.getStagingAdmission r.requestId)
  match current.filter fun a => a.val.state = .claimed with
  | some a => do
      Durable.inspect (validateExistingReplay names a r.arguments.role r.path)
      return a
  | none => claimDecoded names k r current

/-- The check of the bundle that is about to be removed. -/
def checkConsumed (current : StagingAdmissionRecordV1) (d : StagingDisk) :
    Except SubmissionError Unit := do
  let b ← validateServiceBundle names current.val.requestId current.val.role
    ⟨current.val.role, .admitted, current.val.bundleName⟩ .admitted d
  rejectIf (current.val.payloadIdentity ≠ b.lease.val.payloadIdentity ∨
      current.val.sourceSha256 ≠ b.lease.val.sourceSha256 ∨
      current.val.leaseSha256 ≠ b.leaseSha256)
    (staging "durable staging cleanup authority changed" "STAGING_IDENTITY_DRIFT")

/-- Remove the bundle of an admitted request, and mark it as consumed. -/
def consume (requestId : String) (expectedRevision : Int) : Staged Unit := do
  match ← Durable.inspect fun d => .ok (d.getStagingAdmission requestId) with
  | none =>
      Durable.raise
        (staging "staging admission is not durably admitted" "STAGING_STATE_INVALID")
  | some current => do
      Durable.inspect fun _ => rejectIf (current.val.state ≠ .durablyAdmitted)
        (staging "staging admission is not durably admitted" "STAGING_STATE_INVALID")
      match ← Durable.inspect fun d => .ok (d.bundle .admitted current.val.bundleName) with
      | some _ => do
          Durable.inspect (checkConsumed names current)
          Durable.write fun d => d.detach .admitted
      | none => pure ()
      let _ ← markStagingConsumed k requestId expectedRevision

end ClientData

open ClientData

/-! ### The reconciliation -/

namespace StagingDisk

open StagingReconciliation

variable (d : StagingDisk)

/-- What a reconciliation of the disk finds. -/
def input (role : ClientDataRole) (k : StagingMoment) (activeRequests : List String) : Input where
  clock := k.clock
  activeRequests := activeRequests
  directory := fun r phase =>
    if r = role then (d.directory phase).toList.map fun b => ⟨b.name, true, .ok b.lease⟩ else []
  detaches := fun _ _ _ => true
  quarantines := fun _ _ _ => true
  marker := fun _ => d.marker
  now := k.utc

/-- What becomes of the entry of a directory. -/
def decide (role : ClientDataRole) (k : StagingMoment) (activeRequests : List String)
    (admissions : List StagingAdmissionRecordV1) (phase : BundlePhase) : Decision :=
  match d.directory phase with
  | none => .leave
  | some b =>
      decideEntry (d.input role k activeRequests) admissions
        ⟨role, phase, ⟨b.name, true, .ok b.lease⟩⟩

end StagingDisk

namespace StagedService

open StagingReconciliation

variable (names : StagingNames) (k : StagingMoment)

/-- A decision about the entry of a directory is carried out. Whether the role is blocked comes
back. -/
def perform (phase : BundlePhase) : Decision → Staged Bool
  | .leave => return false
  | .mark _ _ => do
      Durable.write fun d => { d with marker := true }
      return true
  | .remove _ => do
      Durable.write fun d => d.detach phase
      return false
  | .consume a => do
      Durable.write fun d => d.detach phase
      let _ ← markStagingConsumed k a.val.requestId a.val.revision
      return false
  | .quarantine _ _ _ _ none => do
      Durable.write fun d => d.detach phase
      return false
  | .quarantine _ _ _ _ (some a) => do
      Durable.write fun d => d.detach phase
      let _ ← recordStagingRecovery k a
      return false

/-- The reconciliation of a role: the drop, then the admitted directory. -/
def reconcile (role : ClientDataRole) (activeRequests : List String) : Staged Bool := do
  let admissions ← Durable.inspect fun d => .ok d.admission.toList
  let drop ← Durable.inspect fun d => .ok (d.decide role k activeRequests admissions .drop)
  let inDrop ← perform k .drop drop
  let admitted ← Durable.inspect fun d =>
    .ok (d.decide role k activeRequests admissions .admitted)
  let inAdmitted ← perform k .admitted admitted
  let marker ← Durable.inspect fun d => .ok d.marker
  return inDrop || inAdmitted || marker

/-! ### The chain -/

/-- What an admission says of the artifact of its input. -/
def expectedArtifact (role : ClientDataRole) (a : StagingAdmissionRecordV1) :
    ArtifactRef.Fields :=
  inputArtifact role a.val.requestId a.val.sourceSha256 a.val.payloadIdentity.val.sizeBytes.toNat

/-- The promoted attempt of a claimed request that has no job is removed at the start. -/
def recoverUncommittedStagingPromotions : Staged Unit := do
  match ← Durable.inspect fun d => .ok (d.admission.filter fun a => a.val.state = .claimed) with
  | none => return ()
  | some a => do
      Durable.inspect fun d => rejectIf
        (d.getJob (names.stagingJobId a.val.requestId a.val.role) ≠ none)
        (.service "STAGING_ADMISSION_INVALID"
          "claimed staging authority unexpectedly has a durable job")
      let promoted ← Durable.inspect fun d => .ok
        (readBytes names (expectedArtifact a.val.role a) (maxBytes a.val.role) d)
      match promoted with
      | .ok _ => discardPromotedBundle names (expectedArtifact a.val.role a)
      | .error e =>
          if e.code = some "ARTIFACT_PATH_INVALID" then return () else Durable.raise e

/-- The payload of the bundle of an admission. -/
def payloadPath (a : StagingAdmissionRecordV1) (d : StagingDisk) : Option (List UInt8) :=
  (d.bundle .admitted a.val.bundleName).map fun b => b.payload

/-- The artifact of the input is read, or else imported. Whether it was imported comes back. -/
def importOrRecoverStaged (a : StagingAdmissionRecordV1) :
    Staged (ArtifactRef.Fields × Bool) :=
  Durable.handle
    (do
      let _ ← Durable.inspect
        (readBytes names (expectedArtifact a.val.role a) (maxBytes a.val.role))
      return (expectedArtifact a.val.role a, false))
    (fun e => do
      if e.code ≠ some "ARTIFACT_PATH_INVALID" then
        Durable.raise e
      let source ← Durable.inspect fun d => .ok (payloadPath a d)
      let artifact ← importFile names a.val.role a.val.requestId source
      return (artifact, true))

/-- The job of a request. -/
def newJob (r : SubmissionRequest) (a : StagingAdmissionRecordV1) (artifact : ArtifactRef.Fields) :
    StagedJob where
  jobId := names.stagingJobId r.requestId r.arguments.role
  kind := r.arguments.kind
  name := r.arguments.jobName
  inputPath := ⟨a.val.role, .admitted, a.val.bundleName⟩
  arguments := r.arguments
  artifacts := [artifact]

/-- The claimed admission of a request. -/
def requireClaimed (r : SubmissionRequest) (d : StagingDisk) :
    Except SubmissionError StagingAdmissionRecordV1 := do
  rejectIf (d.getJob (names.stagingJobId r.requestId r.arguments.role) ≠ none)
    (.service "JOB_ALREADY_EXISTS" "job already exists")
  match d.getStagingAdmission r.requestId with
  | none => .error (.service "STAGING_ADMISSION_INVALID" "staging authority is not claimed")
  | some a => do
      rejectIf (a.val.state ≠ .claimed ∨ a.val.role ≠ r.arguments.role)
        (.service "STAGING_ADMISSION_INVALID" "staging authority is not claimed")
      return a

/-- The chain imports the payload of a claimed bundle, and stores the job. What it has imported
is removed again when the job is not stored. -/
def coordinatorSubmit (r : SubmissionRequest) : Staged StagedJob := do
  let a ← Durable.inspect (requireClaimed names r)
  let imported ← importOrRecoverStaged names a
  Durable.handle (createJobWithStaging k (newJob names r a imported.1) r.requestId a.val.revision)
    fun e => do
      if imported.2 then discardPromotedBundle names imported.1
      Durable.raise e
  return newJob names r a imported.1

/-! ### The commands -/

/-- The error of a replay that does not match. -/
def replayMismatch (message : String) : SubmissionError :=
  .service "STAGING_REPLAY_MISMATCH" message

/-- A job has one artifact of the role of its input, which is that of an admission. -/
def hasExactInput (role : ClientDataRole) (a : StagingAdmissionRecordV1) (job : StagedJob) :
    Bool :=
  match job.artifacts.filter fun artifact => artifact.role = inputRole role with
  | [artifact] =>
      artifact.sha256 = a.val.sourceSha256 &&
        artifact.sizeBytes = a.val.payloadIdentity.val.sizeBytes
  | _ => false

/-- The job of a request that was admitted, if it is the one that is submitted again. -/
def exactStagingReplay (r : SubmissionRequest) (a : StagingAdmissionRecordV1)
    (d : StagingDisk) : Except SubmissionError StagedJob := do
  match a.val.jobId.bind d.getJob with
  | none => .error (replayMismatch "durable staging replay does not match its job")
  | some job => do
      rejectIf (job.kind ≠ r.arguments.kind)
        (replayMismatch "durable staging replay does not match its job")
      -- The name and the arguments of a check are not compared: it has none of its own.
      rejectIf (r.arguments ≠ .gcodeCheck ∧ job.name ≠ r.arguments.jobName)
        (replayMismatch "durable staging replay does not match its job")
      rejectIf (job.inputPath ≠ ⟨r.arguments.role, .admitted, a.val.bundleName⟩)
        (replayMismatch "durable job input does not match staging authority")
      rejectIf (r.arguments ≠ .gcodeCheck ∧ job.arguments ≠ r.arguments)
        (replayMismatch "request_id was replayed with different arguments")
      rejectIf (hasExactInput r.arguments.role a job = false)
        (replayMismatch "durable job artifact does not match staging authority")
      return job

/-- The admission of a request after its job is stored. -/
def requireDurable (r : SubmissionRequest) (d : StagingDisk) :
    Except SubmissionError StagingAdmissionRecordV1 :=
  match d.getStagingAdmission r.requestId with
  | none => .error (.service "STAGING_ADMISSION_INVALID"
      "job was not durably bound to its staging authority")
  | some a => do
      rejectIf (a.val.state ≠ .durablyAdmitted)
        (.service "STAGING_ADMISSION_INVALID"
          "job was not durably bound to its staging authority")
      return a

/-- A request whose job was stored before gets it again. -/
def replay (r : SubmissionRequest) (a : StagingAdmissionRecordV1) : Staged StagedJob := do
  let job ← Durable.inspect (exactStagingReplay r a)
  if a.val.state = .durablyAdmitted then consume names k r.requestId a.val.revision
  return job

/-- A request without a job gets one. -/
def submit (r : SubmissionRequest) : Staged StagedJob := do
  let _ ← claim names k r
  let job ← coordinatorSubmit names k r
  let a ← Durable.inspect (requireDurable r)
  consume names k r.requestId a.val.revision
  return job

/-- The request of a command, without the reconciliations around it. -/
def serveInner (r : SubmissionRequest) : Staged StagedJob := do
  bindRequestEnvelope r
  let a ← registerDecoded names k r
  if a.val.state = .durablyAdmitted ∨ a.val.state = .consumed then replay names k r a
  else submit names k r

/-- The reconciliation before a command must not block the role. -/
def beforeStagingCommand (r : SubmissionRequest) : Staged Unit := do
  let blocked ← reconcile k r.arguments.role [r.requestId]
  Durable.inspect fun _ => rejectIf (blocked = true)
    (.service "STAGING_RECOVERY_REQUIRED"
      "staging reconciliation blocks this client-data role")

/-- The reconciliation after a command. -/
def afterStagingCommand (r : SubmissionRequest) : Staged PUnit := do
  let _ ← reconcile k r.arguments.role [r.requestId]

/-- The command of a request. -/
def serve (r : SubmissionRequest) : Staged StagedJob :=
  Durable.ensure
    (do
      beforeStagingCommand k r
      serveInner names k r)
    (afterStagingCommand k r)

/-- The start of the service: the chain is initialised, and the bundles are reconciled. -/
def restart (role : ClientDataRole) : Staged Unit := do
  recoverUncommittedStagingPromotions names
  let _ ← reconcile k role []

end StagedService

end DrawingMachine
