import DrawingMachine.Machine.Approvals

/-!
# Staged client data

A client hands a file to the service as a bundle in a directory of its role: the payload and
a lease that says what the payload is. The service keeps a durable record of the admission of
each bundle. The names of the bundles, the leases and the records are checked as the source
checks them; an error is a `ValueError` or a `TypeError`.
-/

namespace DrawingMachine

/-- An error that the constructor of a value of the port raises. -/
inductive ContractError where
  | valueError (message : String)
  | typeError (message : String)
  deriving DecidableEq, Repr

/-- What a client hands over. -/
inductive ClientDataRole where
  | image | gcode
  deriving DecidableEq, Repr

namespace ClientDataRole

/-- The text of a role. -/
def value : ClientDataRole → String
  | .image => "image"
  | .gcode => "gcode"

/-- The role of a text. -/
def ofText : List Char → Option ClientDataRole
  | ['i', 'm', 'a', 'g', 'e'] => some .image
  | ['g', 'c', 'o', 'd', 'e'] => some .gcode
  | _ => none

end ClientDataRole

/-- The state of the admission of a bundle. -/
inductive StagingAdmissionState where
  | requestDecoded | claimed | durablyAdmitted | consumed | quarantined | recoveryRequired
  deriving DecidableEq, Repr

/-- The text of the state of an admission. -/
def StagingAdmissionState.value : StagingAdmissionState → String
  | .requestDecoded => "REQUEST_DECODED"
  | .claimed => "CLAIMED"
  | .durablyAdmitted => "DURABLY_ADMITTED"
  | .consumed => "CONSUMED"
  | .quarantined => "QUARANTINED"
  | .recoveryRequired => "RECOVERY_REQUIRED"

/-- The state of a bundle on the side of the client. -/
inductive StagingOwnershipState where
  | clientPrepared | publishedUnsent | dispatchUncertain | requestDecoded | claimed
  | durablyAdmitted | consumed | expiredQuarantined | recoveryRequired
  deriving DecidableEq, Repr

/-- The text of the state of a bundle on the side of the client. -/
def StagingOwnershipState.value : StagingOwnershipState → String
  | .clientPrepared => "CLIENT_PREPARED"
  | .publishedUnsent => "PUBLISHED_UNSENT"
  | .dispatchUncertain => "DISPATCH_UNCERTAIN"
  | .requestDecoded => "REQUEST_DECODED"
  | .claimed => "CLAIMED"
  | .durablyAdmitted => "DURABLY_ADMITTED"
  | .consumed => "CONSUMED"
  | .expiredQuarantined => "EXPIRED_QUARANTINED"
  | .recoveryRequired => "RECOVERY_REQUIRED"

/-- Why the admission of a bundle needs recovery. -/
inductive StagingRecoveryReasonCode where
  | evidenceWriteFailed | identityDrift | invalidPrepareName | invalidStagingBundle | lockRace
  | observationCorrupt | observationDeleteFailed | observationUpdateFailed | parentFsyncFailed
  | publishMismatch | quarantineFailed | specialStagingEntry | staleAdmitted | staleDrop
  | stalePrepare
  deriving DecidableEq, Repr

/-! ### Texts -/

/-- A digit of a canonical digest. -/
def isHexDigit (c : Char) : Bool := ('0' ≤ c && c ≤ '9') || ('a' ≤ c && c ≤ 'f')

/-- The check of the identifier of a request. -/
def canonicalRequestId (value : String) : Except ContractError Unit :=
  rejectIf (¬ CanonicalUuid4 value) (.valueError "request_id must be a canonical lowercase UUIDv4")

/-- The parts of the name of a bundle: its role, the request it belongs to, and its phase. -/
structure BundleName where
  role : ClientDataRole
  request : String
  phase : String
  deriving DecidableEq, Repr

/-- The parts of a text that is the name of a bundle: the role, the request and 32 digits,
between pairs of hyphens, and the phase as the extension. Every part but the last has a fixed
length. -/
def matchBundle (value : String) : Option BundleName :=
  let t := value.toList
  let request := String.ofList ((t.drop 7).take 36)
  let phase := String.ofList (t.drop 78)
  match ClientDataRole.ofText (t.take 5) with
  | none => none
  | some role =>
      if (t.drop 5).take 2 = ['-', '-'] ∧ CanonicalUuid4 request ∧
          (t.drop 43).take 2 = ['-', '-'] ∧ ((t.drop 45).take 32).length = 32 ∧
          (∀ c ∈ (t.drop 45).take 32, isHexDigit c = true) ∧ (t.drop 77).take 1 = ['.'] ∧
          (phase = "prepare" ∨ phase = "stage") then
        some ⟨role, request, phase⟩
      else none

/-- The role and the request in the name of a bundle of a phase. -/
def parseBundleName (value phase : String) : Except ContractError (ClientDataRole × String) :=
  match matchBundle value with
  | none => .error (.valueError "staging bundle name is not canonical")
  | some name => do
      rejectIf (name.phase ≠ phase) (.valueError "staging bundle phase is not canonical")
      canonicalRequestId name.request
      return (name.role, name.request)

/-- The check of a digest. -/
def stagingDigest (value field : String) : Except ContractError Unit :=
  rejectIf (¬ Sha256Hex value) (.valueError (field ++ " must be canonical SHA-256"))

/-- The check of a number that is not negative. -/
def stagingNonnegative (value : Int) (field : String) : Except ContractError Unit :=
  rejectIf (value < 0) (.typeError (field ++ " must be a non-negative exact integer"))

/-- The check of a positive number. -/
def stagingPositive (value : Int) (field : String) : Except ContractError Unit :=
  rejectIf (value ≤ 0) (.typeError (field ++ " must be a positive exact integer"))

/-- A letter or a digit. -/
def isBootHead (c : Char) : Bool :=
  ('A' ≤ c && c ≤ 'Z') || ('a' ≤ c && c ≤ 'z') || ('0' ≤ c && c ≤ '9')

/-- The identifier of a boot: a letter or a digit, and at most 127 letters, digits, full stops,
underscores, colons and hyphens. -/
def CanonicalBoot (value : String) : Prop :=
  ∃ c ∈ value.toList.head?, isBootHead c = true ∧ value.toList.tail.length ≤ 127 ∧
    ∀ d ∈ value.toList.tail, isBootHead d = true ∨ d ∈ ['.', '_', ':', '-']

instance (value : String) : Decidable (CanonicalBoot value) :=
  match h : value.toList.head? with
  | none => isFalse (by simp [CanonicalBoot, h])
  | some c =>
      decidable_of_iff (isBootHead c = true ∧ value.toList.tail.length ≤ 127 ∧
        ∀ d ∈ value.toList.tail, isBootHead d = true ∨ d ∈ ['.', '_', ':', '-'])
        (by simp [CanonicalBoot, h])

/-- The check of the identifier of a boot. -/
def stagingBoot (value : String) : Except ContractError Unit :=
  rejectIf (¬ CanonicalBoot value)
    (.valueError "publisher_boot_id must be bounded and canonical")

/-! ### The identity of a payload -/

/-- The fields of the identity of a payload: the file, its size, and its contents. -/
structure PayloadIdentityV1.Fields where
  device : Int
  inode : Int
  sizeBytes : Int
  sha256 : String
  deriving DecidableEq, Repr

/-- The checks of the identity of a payload. -/
def PayloadIdentityV1.Fields.postInit (p : PayloadIdentityV1.Fields) :
    Except ContractError Unit := do
  stagingNonnegative p.device "device"
  stagingPositive p.inode "inode"
  stagingNonnegative p.sizeBytes "size_bytes"
  stagingDigest p.sha256 "sha256"

/-- The identity of a payload. -/
abbrev PayloadIdentityV1 := { p : PayloadIdentityV1.Fields // p.postInit = .ok () }

/-- The identity of a payload, when its fields pass. -/
def PayloadIdentityV1.build (p : PayloadIdentityV1.Fields) : Except ContractError PayloadIdentityV1 :=
  acceptIf PayloadIdentityV1.Fields.postInit p

/-! ### Leases -/

/-- The fields of a lease: the payload, who published it and until when it waits. -/
structure StagingLeaseV1.Fields where
  requestId : String
  role : ClientDataRole
  state : StagingOwnershipState
  sourceSha256 : String
  sourceSizeBytes : Int
  payloadIdentity : PayloadIdentityV1
  publisherBootId : String
  publishedMonotonicNs : Int
  deadlineMonotonicNs : Int
  payloadName : String
  schemaVersion : Int
  deriving DecidableEq

/-- The checks of a lease. -/
def StagingLeaseV1.Fields.postInit (l : StagingLeaseV1.Fields) : Except ContractError Unit := do
  rejectIf (l.schemaVersion ≠ 1) (.valueError "staging lease schema_version must be 1")
  canonicalRequestId l.requestId
  rejectIf (l.state ≠ .publishedUnsent ∧ l.state ≠ .dispatchUncertain)
    (.valueError "published lease state is invalid")
  stagingDigest l.sourceSha256 "source_sha256"
  stagingPositive l.sourceSizeBytes "source_size_bytes"
  rejectIf (l.payloadIdentity.val.sha256 ≠ l.sourceSha256 ∨
      l.payloadIdentity.val.sizeBytes ≠ l.sourceSizeBytes)
    (.valueError "payload identity must match source bytes")
  stagingBoot l.publisherBootId
  stagingNonnegative l.publishedMonotonicNs "published_monotonic_ns"
  rejectIf (l.deadlineMonotonicNs ≤ l.publishedMonotonicNs)
    (.valueError "deadline_monotonic_ns must follow publication")
  rejectIf (l.payloadName ≠ "payload") (.valueError "payload_name must be payload")

/-- A lease. -/
abbrev StagingLeaseV1 := { l : StagingLeaseV1.Fields // l.postInit = .ok () }

/-! ### Records -/

/-- The fields of the record of an admission. -/
structure StagingAdmissionRecordV1.Fields where
  requestId : String
  role : ClientDataRole
  bundleName : String
  payloadIdentity : PayloadIdentityV1
  sourceSha256 : String
  leaseSha256 : String
  publisherBootId : String
  publishedMonotonicNs : Int
  deadlineMonotonicNs : Int
  state : StagingAdmissionState
  jobId : Option String
  revision : Int
  createdAtUtc : String
  updatedAtUtc : String
  recoveryCode : Option StagingRecoveryReasonCode
  schemaVersion : Int
  deriving DecidableEq

namespace StagingAdmissionRecordV1.Fields

variable (r : StagingAdmissionRecordV1.Fields)

/-- The job of a record fits its state. -/
def checkJob : Except ContractError Unit :=
  if r.state = .durablyAdmitted ∨ r.state = .consumed then
    rejectIf (r.jobId = none ∨ r.jobId = some "")
      (.valueError "durable staging admission requires job_id")
  else if r.state ≠ .recoveryRequired ∧ r.jobId ≠ none then
    .error (.valueError "pre-admission staging record cannot bind a job")
  else
    rejectIf (r.jobId = some "")
      (.valueError "recovery staging job binding must be a non-empty string")

/-- The recovery code of a record fits its state. -/
def checkRecovery : Except ContractError Unit :=
  if r.state = .recoveryRequired then
    rejectIf (r.recoveryCode = none)
      (.valueError "recovery-required staging admission requires a closed code")
  else
    rejectIf (r.recoveryCode ≠ none)
      (.valueError "recovery code is allowed only for recovery-required admission")

/-- The checks of a record. -/
def postInit : Except ContractError Unit := do
  rejectIf (r.schemaVersion ≠ 1) (.valueError "staging admission schema_version must be 1")
  canonicalRequestId r.requestId
  let parsed ← parseBundleName r.bundleName "stage"
  rejectIf (parsed ≠ (r.role, r.requestId))
    (.valueError "staging admission bundle binding does not match")
  stagingDigest r.sourceSha256 "source_sha256"
  stagingDigest r.leaseSha256 "lease_sha256"
  stagingBoot r.publisherBootId
  stagingNonnegative r.publishedMonotonicNs "published_monotonic_ns"
  rejectIf (r.deadlineMonotonicNs ≤ r.publishedMonotonicNs)
    (.valueError "staging admission deadline must follow publication")
  stagingNonnegative r.revision "revision"
  r.checkJob
  r.checkRecovery
  rejectIf (r.createdAtUtc = "")
    (.typeError "staging admission timestamps must be exact strings")

end StagingAdmissionRecordV1.Fields

/-- The record of an admission. -/
abbrev StagingAdmissionRecordV1 :=
  { r : StagingAdmissionRecordV1.Fields // r.postInit = .ok () }

/-- The record of an admission, when its fields pass. -/
def StagingAdmissionRecordV1.build (r : StagingAdmissionRecordV1.Fields) :
    Except ContractError StagingAdmissionRecordV1 :=
  acceptIf StagingAdmissionRecordV1.Fields.postInit r

/-! ### What an accepted record says -/

section

variable {value field phase : String} {n : Int}

/-- The identifier of a request passes exactly when it is canonical. -/
@[simp] theorem canonicalRequestId_eq_ok_iff :
  canonicalRequestId value = .ok () ↔ CanonicalUuid4 value
  := by
  simp [canonicalRequestId]

/-- A digest passes exactly when it is canonical. -/
@[simp] theorem stagingDigest_eq_ok_iff :
  stagingDigest value field = .ok () ↔ Sha256Hex value
  := by
  simp [stagingDigest]

/-- A number passes exactly when it is not negative. -/
@[simp] theorem stagingNonnegative_eq_ok_iff :
  stagingNonnegative n field = .ok () ↔ 0 ≤ n
  := by
  simp [stagingNonnegative]

/-- A number passes exactly when it is positive. -/
@[simp] theorem stagingPositive_eq_ok_iff :
  stagingPositive n field = .ok () ↔ 0 < n
  := by
  simp [stagingPositive]

/-- The identifier of a boot passes exactly when it is canonical. -/
@[simp] theorem stagingBoot_eq_ok_iff :
  stagingBoot value = .ok () ↔ CanonicalBoot value
  := by
  simp [stagingBoot]

/-- The request in the name of a bundle is canonical. -/
theorem matchBundle_request {name : BundleName} (h : matchBundle value = some name) :
  CanonicalUuid4 name.request
  := by
  simp only [matchBundle] at h
  split at h
  · cases h
  · split at h
    · next hparts =>
        cases h
        apply hparts.2.1
    · cases h

/-- The name of a bundle is parsed exactly when it matches, in the phase. -/
theorem parseBundleName_eq_ok_iff {role : ClientDataRole} {request : String} :
  parseBundleName value phase = .ok (role, request) ↔
    matchBundle value = some ⟨role, request, phase⟩
  := by
  unfold parseBundleName
  cases hmatch : matchBundle value with
  | none => simp
  | some name =>
      have hcanonical := matchBundle_request hmatch
      simp only [Except.unit_bind_eq_ok_iff, rejectIf_eq_ok_iff, canonicalRequestId_eq_ok_iff,
        Except.pure_eq_ok_iff, Option.some.injEq, not_not, ne_eq, hcanonical, true_and]
      obtain ⟨nameRole, nameRequest, namePhase⟩ := name
      simp only [Prod.mk.injEq, BundleName.mk.injEq]
      constructor
      · rintro ⟨rfl, rfl, rfl⟩
        refine ⟨rfl, rfl, rfl⟩
      · rintro ⟨rfl, rfl, rfl⟩
        refine ⟨rfl, rfl, rfl⟩

end

/-- The identity of a payload passes exactly when its numbers and its digest do. -/
theorem PayloadIdentityV1.Fields.postInit_eq_ok_iff {p : PayloadIdentityV1.Fields} :
  p.postInit = .ok () ↔ 0 ≤ p.device ∧ 0 < p.inode ∧ 0 ≤ p.sizeBytes ∧ Sha256Hex p.sha256
  := by
  simp [PayloadIdentityV1.Fields.postInit]

namespace StagingAdmissionRecordV1.Fields

variable {r : StagingAdmissionRecordV1.Fields}

/-- What the checks of a record establish. -/
structure Valid (r : StagingAdmissionRecordV1.Fields) : Prop where
  schemaVersion : r.schemaVersion = 1
  requestId : CanonicalUuid4 r.requestId
  bundleName : matchBundle r.bundleName = some ⟨r.role, r.requestId, "stage"⟩
  sourceSha256 : Sha256Hex r.sourceSha256
  leaseSha256 : Sha256Hex r.leaseSha256
  publisherBootId : CanonicalBoot r.publisherBootId
  published : 0 ≤ r.publishedMonotonicNs
  deadline : r.publishedMonotonicNs < r.deadlineMonotonicNs
  revision : 0 ≤ r.revision
  job : r.checkJob = .ok ()
  recovery : r.checkRecovery = .ok ()
  createdAtUtc : r.createdAtUtc ≠ ""

/-- A record passes exactly when all of that holds. -/
theorem postInit_eq_ok_iff : r.postInit = .ok () ↔ r.Valid := by
  simp only [postInit, Except.bind_eq_ok_iff, Except.exists_unit_iff, rejectIf_eq_ok_iff,
    canonicalRequestId_eq_ok_iff, stagingDigest_eq_ok_iff, stagingBoot_eq_ok_iff,
    stagingNonnegative_eq_ok_iff, not_not, ne_eq, not_le]
  constructor
  · rintro ⟨hversion, hrequest, parsed, hparsed, rfl, hsource, hlease, hboot, hpublished,
      hdeadline, hrevision, hjob, hrecovery, hcreated⟩
    exact ⟨hversion, hrequest, parseBundleName_eq_ok_iff.mp hparsed, hsource, hlease, hboot,
      hpublished, hdeadline, hrevision, hjob, hrecovery, hcreated⟩
  · intro h
    exact ⟨h.schemaVersion, h.requestId, _, parseBundleName_eq_ok_iff.mpr h.bundleName, rfl,
      h.sourceSha256, h.leaseSha256, h.publisherBootId, h.published, h.deadline, h.revision,
      h.job, h.recovery, h.createdAtUtc⟩

/-- The job of a record passes exactly when it is there in the states after the admission,
absent in those before it, and never empty. -/
theorem checkJob_eq_ok_iff :
  r.checkJob = .ok () ↔
    ((r.state = .durablyAdmitted ∨ r.state = .consumed) → r.jobId ≠ none) ∧
    ((r.state = .requestDecoded ∨ r.state = .claimed ∨ r.state = .quarantined) →
      r.jobId = none) ∧
    r.jobId ≠ some ""
  := by
  unfold checkJob
  cases r.state <;> cases r.jobId <;> simp

/-- The recovery code of a record passes exactly when it is there in the state of recovery. -/
theorem checkRecovery_eq_ok_iff :
  r.checkRecovery = .ok () ↔ (r.state = .recoveryRequired ↔ r.recoveryCode ≠ none)
  := by
  unfold checkRecovery
  cases r.state <;> cases r.recoveryCode <;> simp

end StagingAdmissionRecordV1.Fields

end DrawingMachine
