import DrawingMachine.Machine.Decoding
import DrawingMachine.Machine.Approvals

/-!
# Decoding approvals

The decoders of principals, bindings, approval evidence and challenges. A challenge is
decoded for trusted principals: the configured roles and the authenticated peers, which the
decoded challenge must name.
-/

namespace DrawingMachine

open Declares PyValue FromJson

/-! ### Names and fields -/

/-- The phases by their names. -/
def MachinePhase.members : List (String × MachinePhase) :=
  [ ("PREPARING_SESSION", .preparingSession),
    ("AWAITING_HOME_APPROVAL", .awaitingHomeApproval),
    ("HOMING", .homing),
    ("AWAITING_ZCAL_APPROVAL", .awaitingZcalApproval),
    ("Z_CALIBRATING", .zCalibrating),
    ("AWAITING_ZCONFIRM_APPROVAL", .awaitingZconfirmApproval),
    ("Z_CONFIRMING", .zConfirming),
    ("AWAITING_STREAM_APPROVAL", .awaitingStreamApproval),
    ("STREAMING", .streaming),
    ("AWAITING_HOME_Z_APPROVAL", .awaitingHomeZApproval),
    ("HOMING_Z", .homingZ),
    ("COMPLETED", .completed),
    ("RECOVERY_REQUIRED", .recoveryRequired) ]

/-- The recovery dispositions by their names. -/
def RecoveryDisposition.members : List (String × RecoveryDisposition) :=
  [ ("RELEASE", .release),
    ("RESTART_SEQUENCE", .restartSequence),
    ("SAFE_HOME", .safeHome) ]

/-- The statuses of a challenge by their names. -/
def ApprovalStatus.members : List (String × ApprovalStatus) :=
  [ ("PENDING", .pending),
    ("CONSUMED", .consumed),
    ("SUPERSEDED", .superseded),
    ("EXPIRED", .expired) ]

/-- The purposes of a challenge by their texts. -/
def ApprovalPurpose.members : List (String × ApprovalPurpose) :=
  [ ("motor high-voltage connected, physical area clear, approve HOME", .home),
    ("physical area clear, approve ZCAL", .zcal),
    ("manual pen-height adjustment complete, physical area clear, approve ZCONFIRM", .zconfirm),
    ("drawing setup verified, physical area clear, approve STREAM", .stream),
    ("physical area clear, approve HOME_Z", .homeZ),
    ("review recovery evidence and approve RECOVER", .recover) ]

/-- The fields of a principal. -/
def principalFields : List String := ["uid", "gid"]

/-- The fields of an authenticated principal. -/
def authenticatedPrincipalFields : List String := ["uid", "gid", "pid"]

/-- The fields of a binding. -/
def bindingFields : List String :=
  ["schema_version", "execution_id", "execution_revision", "action", "recovery_disposition",
    "required_prior_phase", "service_epoch", "machine_session_epoch", "job_id",
    "ready_revision", "application_digest", "machine_digest", "provider_digest",
    "gcode_sha256"]

/-- The fields of approval evidence. -/
def evidenceFields : List String :=
  ["schema_version", "action", "required_prior_phase", "session"]

/-- The fields of a challenge. -/
def challengeFields : List String :=
  ["schema_version", "challenge_id", "binding", "requester", "operator_principal", "purpose",
    "evidence", "issued_at", "issued_monotonic", "monotonic_deadline", "expires_at", "status",
    "status_changed_at", "consumer"]

/-! ### Readers -/

section

variable {φ : Type}

/-- A value is a digest. -/
def IsDigest (value : PyValue φ) (text : String) : Prop := IsText value text ∧ Sha256Hex text

/-- A value is a random UUID in its canonical form. -/
def IsUuid4 (value : PyValue φ) (text : String) : Prop := IsText value text ∧ CanonicalUuid4 text

/-- A value is a reading of the monotonic clock. -/
def IsMonotonic (py : PyReading φ) (value : PyValue φ) (q : ℚ) : Prop :=
  IsFinite py value q ∧ 0 ≤ q

end

namespace FromJson

variable {φ : Type} (py : PyReading φ) (value : PyValue φ) (field : String)

/-- The digest that a text is. -/
def digest : Decoder String := do
  let result ← string value field
  declared (rejectIf (¬ Sha256Hex result)
    (invalidField (field ++ " must be a lowercase SHA-256 digest") field))
  return result

/-- An instant from its text. -/
def datetimeJson : Decoder Timestamp := do
  let text ← string value field
  let parsed ← isoDatetime py text field
  timestamp parsed field

/-- A reading of the monotonic clock. -/
def monotonic : Decoder ℚ := do
  let result ← finite py value field
  declared (checkMonotonic result field)
  return result

/-- An identifier that is a random UUID. -/
def uuid4 : Decoder String := do
  let text ← string value field
  declared (rejectIf (¬ CanonicalUuid4 text)
    (invalidField (field ++ " must be a canonical UUID4") field))
  return text

section

variable {py value field}

/-- A digest is read from a text of 64 hexadecimal digits. -/
@[simp] theorem digest_eq_ok_iff {text : String} :
  digest value field = .ok text ↔ IsDigest value text
  := by
  simp only [digest, Except.bind_eq_ok_iff, string_eq_ok_iff, declared_eq_ok_iff,
    rejectIf_eq_ok_iff, not_not, Except.exists_unit_iff, Except.pure_eq_ok_iff, IsDigest]
  constructor
  · rintro ⟨_, htext, hdigest, rfl⟩
    apply And.intro htext hdigest
  · rintro ⟨htext, hdigest⟩
    use text, htext, hdigest

/-- Reading a digest lets nothing through. -/
@[simp] theorem not_escapes_digest : ¬ Escapes (digest value field) := by
  simp only [digest, escapes_bind_iff, not_escapes_string, not_escapes_declared,
    not_escapes_pure, and_false, exists_false, or_false, not_false_eq_true]

/-- An instant is read from a text in ISO 8601 with a time zone. -/
@[simp] theorem datetimeJson_eq_ok_iff {t : Timestamp} :
  datetimeJson py value field = .ok t ↔ IsDatetime py value (.aware t)
  := by
  simp only [datetimeJson, Except.bind_eq_ok_iff, string_eq_ok_iff, isoDatetime_eq_ok_iff,
    timestamp_eq_ok_iff, IsDatetime]
  apply exists_congr
  intro text
  simp

/-- Reading an instant lets nothing through. -/
@[simp] theorem not_escapes_datetimeJson : ¬ Escapes (datetimeJson py value field) := by
  simp only [datetimeJson, escapes_bind_iff, not_escapes_string, not_escapes_isoDatetime,
    not_escapes_timestamp, and_false, exists_false, or_false, not_false_eq_true]

/-- A reading of the monotonic clock is a finite number that is not negative. -/
@[simp] theorem monotonic_eq_ok_iff {q : ℚ} :
  monotonic py value field = .ok q ↔ IsMonotonic py value q
  := by
  simp only [monotonic, checkMonotonic, Except.bind_eq_ok_iff, finite_eq_ok_iff,
    declared_eq_ok_iff, rejectIf_eq_ok_iff, not_lt, Except.exists_unit_iff,
    Except.pure_eq_ok_iff, IsMonotonic]
  constructor
  · rintro ⟨_, hq, hpos, rfl⟩
    apply And.intro hq hpos
  · rintro ⟨hq, hpos⟩
    use q, hq, hpos

/-- Reading the monotonic clock lets an exception through exactly when the number is an
integer that is too large for a float. -/
@[simp] theorem escapes_monotonic_iff :
  Escapes (monotonic py value field) ↔ IsTooLarge value
  := by
  simp only [monotonic, escapes_bind_iff, escapes_finite_iff, not_escapes_declared,
    not_escapes_pure, and_false, exists_false, or_false]

/-- A random UUID is read from its canonical text. -/
@[simp] theorem uuid4_eq_ok_iff {text : String} :
  uuid4 value field = .ok text ↔ IsUuid4 value text
  := by
  simp only [uuid4, Except.bind_eq_ok_iff, string_eq_ok_iff, declared_eq_ok_iff,
    rejectIf_eq_ok_iff, not_not, Except.exists_unit_iff, Except.pure_eq_ok_iff, IsUuid4]
  constructor
  · rintro ⟨_, htext, huuid, rfl⟩
    apply And.intro htext huuid
  · rintro ⟨htext, huuid⟩
    use text, htext, huuid

/-- Reading a random UUID lets nothing through. -/
@[simp] theorem not_escapes_uuid4 : ¬ Escapes (uuid4 value field) := by
  simp only [uuid4, escapes_bind_iff, not_escapes_string, not_escapes_declared,
    not_escapes_pure, and_false, exists_false, or_false, not_false_eq_true]

end

end FromJson

/-! ### The decoders -/

section

variable {φ : Type} (py : PyReading φ) (payload : PyValue φ)

/-- Decode the session of approval evidence. -/
def sessionFromJson : Decoder MachineSessionSnapshot := do
  let data ← object payload sessionFields "approval session evidence"
  let stabilized ← boolean (← item data "stabilized")
    (invalidField "approval session evidence stabilized must be a boolean"
      "evidence.session.stabilized")
  let schemaVersion ← integer (← item data "schema_version") "evidence.session.schema_version" 1
  let executionId ← string (← item data "execution_id") "evidence.session.execution_id"
  let machineSessionEpoch ← string (← item data "machine_session_epoch")
    "evidence.session.machine_session_epoch"
  let controllerState ← string (← item data "controller_state")
    "evidence.session.controller_state"
  let mpos ← jsonPosition py (← item data "mpos") "evidence.session.mpos"
  let wpos ← jsonPosition py (← item data "wpos") "evidence.session.wpos"
  let wco ← jsonPosition py (← item data "wco") "evidence.session.wco"
  let g54 ← jsonPosition py (← item data "g54") "evidence.session.g54"
  let observedAt ← datetimeJson py (← item data "observed_at") "evidence.session.observed_at"
  declared (acceptIf MachineSessionSnapshot.Fields.postInit
    { schemaVersion, executionId, machineSessionEpoch, controllerState, mpos, wpos, wco, g54,
      stabilized, observedAt })

/-- Decode a principal. -/
def KernelMachinePrincipal.fromJson : Decoder KernelMachinePrincipal := do
  let data ← object payload principalFields "machine principal"
  let uid ← integer (← item data "uid") "principal.uid" 0
  let gid ← integer (← item data "gid") "principal.gid" 0
  return ⟨uid, gid⟩

/-- Decode an authenticated principal. -/
def AuthenticatedMachinePrincipal.fromJson : Decoder AuthenticatedMachinePrincipal := do
  let data ← object payload authenticatedPrincipalFields "authenticated machine principal"
  let uid ← integer (← item data "uid") "authenticated_principal.uid" 0
  let gid ← integer (← item data "gid") "authenticated_principal.gid" 0
  let pid ← integer (← item data "pid") "authenticated_principal.pid" 1
  if h : 1 ≤ pid then
    return ⟨uid, gid, pid, h⟩
  else
    raise (invalidField "authenticated_principal.pid must be an integer at least 1"
      "authenticated_principal.pid")

/-- Decode a binding. -/
def MachineApprovalBinding.fromJson : Decoder MachineApprovalBinding := do
  let data ← object payload bindingFields "machine approval binding"
  let recoveryDisposition ← nullable (fun value =>
      enumJson RecoveryDisposition.members value "approval_binding.recovery_disposition")
    (← item data "recovery_disposition")
  let schemaVersion ← integer (← item data "schema_version") "approval_binding.schema_version" 1
  let executionId ← string (← item data "execution_id") "approval_binding.execution_id"
  let executionRevision ← integer (← item data "execution_revision")
    "approval_binding.execution_revision" 0
  let action ← enumJson MachineAction.members (← item data "action") "approval_binding.action"
  let requiredPriorPhase ← enumJson MachinePhase.members (← item data "required_prior_phase")
    "approval_binding.required_prior_phase"
  let serviceEpoch ← string (← item data "service_epoch") "approval_binding.service_epoch"
  let machineSessionEpoch ← string (← item data "machine_session_epoch")
    "approval_binding.machine_session_epoch"
  let jobId ← string (← item data "job_id") "approval_binding.job_id"
  let readyRevision ← integer (← item data "ready_revision") "approval_binding.ready_revision" 1
  let applicationDigest ← digest (← item data "application_digest")
    "approval_binding.application_digest"
  let machineDigest ← digest (← item data "machine_digest") "approval_binding.machine_digest"
  let providerDigest ← digest (← item data "provider_digest") "approval_binding.provider_digest"
  let gcodeSha256 ← digest (← item data "gcode_sha256") "approval_binding.gcode_sha256"
  declared (acceptIf MachineApprovalBinding.Fields.postInit
    { executionId, executionRevision, action, recoveryDisposition, requiredPriorPhase,
      serviceEpoch, machineSessionEpoch, jobId, readyRevision, applicationDigest,
      machineDigest, providerDigest, gcodeSha256, schemaVersion })

/-- Decode approval evidence. -/
def MachineApprovalEvidenceV1.fromJson : Decoder MachineApprovalEvidenceV1 := do
  let data ← object payload evidenceFields "machine approval evidence"
  let sessionValue ← item data "session"
  let schemaVersion ← integer (← item data "schema_version") "approval_evidence.schema_version" 1
  let action ← enumJson MachineAction.members (← item data "action") "approval_evidence.action"
  let requiredPriorPhase ← enumJson MachinePhase.members (← item data "required_prior_phase")
    "approval_evidence.required_prior_phase"
  let session ← nullable (sessionFromJson py) sessionValue
  declared (acceptIf MachineApprovalEvidenceV1.Fields.postInit
    { schemaVersion, action, requiredPriorPhase, session })

end

/-- The principals a challenge is decoded for: the configured roles, the authenticated
requester, and the authenticated consumer if there is one. -/
structure TrustedPrincipals where
  automation : KernelMachinePrincipal
  operator : KernelMachinePrincipal
  requester : AuthenticatedMachinePrincipal
  consumer : Option AuthenticatedMachinePrincipal

/-- The checks of the trusted principals. -/
def TrustedPrincipals.check (trusted : TrustedPrincipals) : Except ErrorPayload Unit := do
  rejectIf (trusted.automation.overlaps trusted.operator = true)
    (denied "MACHINE_APPROVAL_ROLES_NOT_DISJOINT"
      "trusted automation and operator UID/GID roles must be disjoint")
  rejectIf (trusted.requester.stablePrincipal ∉ [trusted.automation, trusted.operator])
    (denied "MACHINE_APPROVAL_TRUSTED_REQUESTER_DENIED"
      "trusted authenticated requester is not a configured principal")
  checkSome trusted.consumer fun consumer =>
    rejectIf (consumer.stablePrincipal ≠ trusted.operator)
      (denied "MACHINE_APPROVAL_TRUSTED_CONSUMER_DENIED"
        "trusted authenticated consumer is not the configured operator")

/-- The checks of a decoded challenge against the trusted principals. -/
def TrustedPrincipals.checkNamed (trusted : TrustedPrincipals)
    (challenge : MachineApprovalChallenge) : Except ErrorPayload Unit := do
  rejectIf (challenge.val.operatorPrincipal ≠ trusted.operator)
    (denied "MACHINE_APPROVAL_OPERATOR_SPOOFED"
      "JSON operator identity does not match the trusted configured operator")
  rejectIf (challenge.val.requester ≠ trusted.requester)
    (denied "MACHINE_APPROVAL_REQUESTER_SPOOFED"
      "JSON requester identity does not match the trusted authenticated requester")
  rejectIf (challenge.val.consumer ≠ trusted.consumer)
    (denied "MACHINE_APPROVAL_CONSUMER_SPOOFED"
      "JSON consumer identity does not match the trusted authenticated consumer")

/-- Decode a challenge for the trusted principals. -/
def MachineApprovalChallenge.fromJson {φ : Type} (py : PyReading φ)
    (trusted : TrustedPrincipals) (payload : PyValue φ) : Decoder MachineApprovalChallenge := do
  declared trusted.check
  let data ← object payload challengeFields "machine approval challenge"
  let changedValue ← item data "status_changed_at"
  let consumerValue ← item data "consumer"
  let schemaVersion ← integer (← item data "schema_version") "approval.schema_version" 1
  let challengeId ← uuid4 (← item data "challenge_id") "approval.challenge_id"
  let binding ← MachineApprovalBinding.fromJson (← item data "binding")
  let requester ← AuthenticatedMachinePrincipal.fromJson (← item data "requester")
  let operatorPrincipal ← KernelMachinePrincipal.fromJson (← item data "operator_principal")
  let purpose ← enumJson ApprovalPurpose.members (← item data "purpose") "approval.purpose"
  let evidence ← MachineApprovalEvidenceV1.fromJson py (← item data "evidence")
  let issuedAt ← datetimeJson py (← item data "issued_at") "approval.issued_at"
  let issuedMonotonic ← monotonic py (← item data "issued_monotonic") "approval.issued_monotonic"
  let monotonicDeadline ← monotonic py (← item data "monotonic_deadline")
    "approval.monotonic_deadline"
  let expiresAt ← datetimeJson py (← item data "expires_at") "approval.expires_at"
  let status ← enumJson ApprovalStatus.members (← item data "status") "approval.status"
  let statusChangedAt ← nullable (fun value => datetimeJson py value "approval.status_changed_at")
    changedValue
  let consumer ← nullable AuthenticatedMachinePrincipal.fromJson consumerValue
  let result ← declared (MachineApprovalChallenge.build
    { schemaVersion, challengeId, binding, requester, operatorPrincipal, purpose, evidence,
      issuedAt, issuedMonotonic, monotonicDeadline, expiresAt, status, statusChangedAt,
      consumer })
  declared (trusted.checkNamed result)
  return result

/-! ### What the decoders return and let through -/

section

variable {φ : Type} {py : PyReading φ} {payload : PyValue φ}

/-- A payload describes a principal. -/
def KernelMachinePrincipal.DescribedBy (p : KernelMachinePrincipal) (payload : PyValue φ) :
    Prop :=
  ∃ data, payload = .obj data ∧ HasExactly data principalFields ∧
    IsInteger 0 (valueAt data "uid") p.uid ∧ IsInteger 0 (valueAt data "gid") p.gid

/-- A principal is decoded from the payloads that describe it. -/
theorem KernelMachinePrincipal.fromJson_eq_ok_iff {p : KernelMachinePrincipal} :
  KernelMachinePrincipal.fromJson payload = .ok p ↔ p.DescribedBy payload
  := by
  apply object_bind_eq_ok_iff
  intro data h
  simp (disch := decide) only [item_eq h, ok_bind, Except.bind_eq_ok_iff, integer_eq_ok_iff,
    Except.pure_eq_ok_iff]
  constructor
  · rintro ⟨uid, huid, gid, hgid, rfl⟩
    apply And.intro huid hgid
  · rintro ⟨huid, hgid⟩
    use p.uid, huid, p.gid, hgid

/-- No exception escapes the decoder of principals. -/
theorem KernelMachinePrincipal.not_escapes_fromJson :
  ¬ Escapes (KernelMachinePrincipal.fromJson payload)
  := by
  apply not_escapes_object_bind
  intro data h
  simp (disch := decide) only [item_eq h, ok_bind]
  simp only [escapes_bind_iff, not_escapes_integer, not_escapes_pure, and_false, exists_false,
    or_false, not_false_eq_true]

/-- A payload describes an authenticated principal. -/
def AuthenticatedMachinePrincipal.DescribedBy (p : AuthenticatedMachinePrincipal)
    (payload : PyValue φ) : Prop :=
  ∃ data, payload = .obj data ∧ HasExactly data authenticatedPrincipalFields ∧
    IsInteger 0 (valueAt data "uid") p.uid ∧ IsInteger 0 (valueAt data "gid") p.gid ∧
    IsInteger 1 (valueAt data "pid") p.pid

/-- An authenticated principal is decoded from the payloads that describe it. -/
theorem AuthenticatedMachinePrincipal.fromJson_eq_ok_iff {p : AuthenticatedMachinePrincipal} :
  AuthenticatedMachinePrincipal.fromJson payload = .ok p ↔ p.DescribedBy payload
  := by
  apply object_bind_eq_ok_iff
  intro data h
  simp (disch := decide) only [item_eq h, ok_bind, Except.bind_eq_ok_iff, integer_eq_ok_iff]
  constructor
  · rintro ⟨uid, huid, gid, hgid, pid, hpid, hp⟩
    rw [dif_pos hpid.2, Except.pure_eq_ok_iff] at hp
    obtain rfl := hp
    apply And.intro huid (And.intro hgid hpid)
  · rintro ⟨huid, hgid, hpid⟩
    use p.uid, huid, p.gid, hgid, p.pid, hpid
    rw [dif_pos hpid.2]
    rfl

/-- No exception escapes the decoder of authenticated principals. -/
theorem AuthenticatedMachinePrincipal.not_escapes_fromJson :
  ¬ Escapes (AuthenticatedMachinePrincipal.fromJson payload)
  := by
  apply not_escapes_object_bind
  intro data h
  simp (disch := decide) only [item_eq h, ok_bind]
  simp only [escapes_bind_iff, not_escapes_integer, false_or, integer_eq_ok_iff,
    not_exists, not_and]
  intro _ _ _ _ pid hpid
  rw [dif_pos hpid.2]
  apply not_escapes_pure

/-- A payload describes a binding. -/
def MachineApprovalBinding.Fields.DescribedBy (b : MachineApprovalBinding.Fields)
    (payload : PyValue φ) : Prop :=
  ∃ data, payload = .obj data ∧ HasExactly data bindingFields ∧
    IsInteger 1 (valueAt data "schema_version") b.schemaVersion ∧
    IsText (valueAt data "execution_id") b.executionId ∧
    IsInteger 0 (valueAt data "execution_revision") b.executionRevision ∧
    IsMember MachineAction.members (valueAt data "action") b.action ∧
    IsNullable (IsMember RecoveryDisposition.members) (valueAt data "recovery_disposition")
      b.recoveryDisposition ∧
    IsMember MachinePhase.members (valueAt data "required_prior_phase") b.requiredPriorPhase ∧
    IsText (valueAt data "service_epoch") b.serviceEpoch ∧
    IsText (valueAt data "machine_session_epoch") b.machineSessionEpoch ∧
    IsText (valueAt data "job_id") b.jobId ∧
    IsInteger 1 (valueAt data "ready_revision") b.readyRevision ∧
    IsDigest (valueAt data "application_digest") b.applicationDigest ∧
    IsDigest (valueAt data "machine_digest") b.machineDigest ∧
    IsDigest (valueAt data "provider_digest") b.providerDigest ∧
    IsDigest (valueAt data "gcode_sha256") b.gcodeSha256

/-- A binding is decoded from the payloads that describe it. -/
theorem MachineApprovalBinding.fromJson_eq_ok_iff {b : MachineApprovalBinding} :
  MachineApprovalBinding.fromJson payload = .ok b ↔ b.val.DescribedBy payload
  := by
  apply object_bind_eq_ok_iff
  intro data h
  simp (disch := decide) only [item_eq h, ok_bind, Except.bind_eq_ok_iff, integer_eq_ok_iff,
    string_eq_ok_iff, enumJson_eq_ok_iff, nullable_enumJson_eq_ok_iff, digest_eq_ok_iff,
    declared_eq_ok_iff, acceptIf_eq_ok_iff]
  constructor
  · rintro ⟨disposition, hdisposition, version, hversion, id, hid, revision, hrevision, action,
      haction, phase, hphase, service, hservice, session, hsession, job, hjob, ready, hready,
      application, happlication, machine, hmachine, provider, hprovider, gcode, hgcode, hb⟩
    rw [hb]
    exact ⟨hversion, hid, hrevision, haction, hdisposition, hphase, hservice, hsession, hjob,
      hready, happlication, hmachine, hprovider, hgcode⟩
  · rintro ⟨hversion, hid, hrevision, haction, hdisposition, hphase, hservice, hsession, hjob,
      hready, happlication, hmachine, hprovider, hgcode⟩
    exact ⟨_, hdisposition, _, hversion, _, hid, _, hrevision, _, haction, _, hphase, _,
      hservice, _, hsession, _, hjob, _, hready, _, happlication, _, hmachine, _, hprovider, _,
      hgcode, rfl⟩

/-- No exception escapes the decoder of bindings. -/
theorem MachineApprovalBinding.not_escapes_fromJson :
  ¬ Escapes (MachineApprovalBinding.fromJson payload)
  := by
  apply not_escapes_object_bind
  intro data h
  simp (disch := decide) only [item_eq h, ok_bind]
  simp [escapes_bind_iff]

/-! ### The session of approval evidence -/

/-- The values of the session of approval evidence that are read before its positions are as
they should be. -/
def ApprovalSessionHead (data : List (PyStr × PyValue φ)) : Prop :=
  (∃ b, valueAt data "stabilized" = .bool b) ∧
    (∃ n, IsInteger 1 (valueAt data "schema_version") n) ∧
    (∃ t, IsText (valueAt data "execution_id") t) ∧
    (∃ t, IsText (valueAt data "machine_session_epoch") t) ∧
    ∃ t, IsText (valueAt data "controller_state") t

/-- The session of approval evidence is as it should be up to a coordinate that is too
large. -/
def ApprovalSessionOverflows (py : PyReading φ) (payload : PyValue φ) : Prop :=
  ∃ data, payload = .obj data ∧ HasExactly data sessionFields ∧ ApprovalSessionHead data ∧
    PositionsOverflow py data

/-- A payload describes the session of approval evidence. -/
def MachineSessionSnapshot.Fields.DescribedBy (py : PyReading φ)
    (s : MachineSessionSnapshot.Fields) (payload : PyValue φ) : Prop :=
  ∃ data, payload = .obj data ∧ HasExactly data sessionFields ∧
    IsInteger 1 (valueAt data "schema_version") s.schemaVersion ∧
    IsText (valueAt data "execution_id") s.executionId ∧
    IsText (valueAt data "machine_session_epoch") s.machineSessionEpoch ∧
    IsText (valueAt data "controller_state") s.controllerState ∧
    IsPosition py (valueAt data "mpos") s.mpos ∧
    IsPosition py (valueAt data "wpos") s.wpos ∧
    IsPosition py (valueAt data "wco") s.wco ∧
    IsPosition py (valueAt data "g54") s.g54 ∧
    valueAt data "stabilized" = .bool s.stabilized ∧
    IsDatetime py (valueAt data "observed_at") (.aware s.observedAt)

/-- The session of approval evidence is decoded from the payloads that describe it. -/
theorem sessionFromJson_eq_ok_iff {s : MachineSessionSnapshot} :
  sessionFromJson py payload = .ok s ↔ s.val.DescribedBy py payload
  := by
  apply object_bind_eq_ok_iff
  intro data h
  simp (disch := decide) only [item_eq h, ok_bind, Except.bind_eq_ok_iff, boolean_eq_ok_iff,
    integer_eq_ok_iff, string_eq_ok_iff, jsonPosition_eq_ok_iff, datetimeJson_eq_ok_iff,
    declared_eq_ok_iff, acceptIf_eq_ok_iff]
  constructor
  · rintro ⟨stabilized, hstabilized, version, hversion, id, hid, epoch, hepoch, state, hstate,
      mpos, hmpos, wpos, hwpos, wco, hwco, g54, hg54, observed, hobserved, hs⟩
    rw [hs]
    exact ⟨hversion, hid, hepoch, hstate, hmpos, hwpos, hwco, hg54, hstabilized, hobserved⟩
  · rintro ⟨hversion, hid, hepoch, hstate, hmpos, hwpos, hwco, hg54, hstabilized, hobserved⟩
    exact ⟨_, hstabilized, _, hversion, _, hid, _, hepoch, _, hstate, _, hmpos, _, hwpos, _,
      hwco, _, hg54, _, hobserved, rfl⟩

/-- An exception escapes the decoder of the session of approval evidence exactly when a
coordinate is too large for a float and everything read before it is as it should be. -/
theorem escapes_sessionFromJson_iff :
  Escapes (sessionFromJson py payload) ↔ ApprovalSessionOverflows py payload
  := by
  apply escapes_object_bind_iff
  intro data h
  simp (disch := decide) only [item_eq h, ok_bind]
  simp only [escapes_bind_iff, not_escapes_string, not_escapes_boolean, not_escapes_integer,
    not_escapes_datetimeJson, not_escapes_declared, escapes_jsonPosition_iff,
    string_eq_ok_iff, boolean_eq_ok_iff, integer_eq_ok_iff, jsonPosition_eq_ok_iff,
    ApprovalSessionHead, PositionsOverflow, firstBad_cons_iff, not_firstBad_nil, false_or,
    or_false, and_false, exists_false, exists_and_right, and_assoc]

/-- Null is no session. -/
theorem not_approvalSessionOverflows_null :
  ¬ ApprovalSessionOverflows py (.null : PyValue φ)
  := by
  rintro ⟨data, h, -⟩
  cases h

/-! ### Approval evidence -/

/-- The values of approval evidence that are read before its session are as they should be. -/
def EvidenceHead (data : List (PyStr × PyValue φ)) : Prop :=
  (∃ n, IsInteger 1 (valueAt data "schema_version") n) ∧
    (∃ action, IsMember MachineAction.members (valueAt data "action") action) ∧
    ∃ phase, IsMember MachinePhase.members (valueAt data "required_prior_phase") phase

/-- Approval evidence is as it should be up to a coordinate of its session that is too
large. -/
def EvidenceOverflows (py : PyReading φ) (payload : PyValue φ) : Prop :=
  ∃ data, payload = .obj data ∧ HasExactly data evidenceFields ∧ EvidenceHead data ∧
    ApprovalSessionOverflows py (valueAt data "session")

/-- A payload describes approval evidence. -/
def MachineApprovalEvidenceV1.Fields.DescribedBy (py : PyReading φ)
    (e : MachineApprovalEvidenceV1.Fields) (payload : PyValue φ) : Prop :=
  ∃ data, payload = .obj data ∧ HasExactly data evidenceFields ∧
    IsInteger 1 (valueAt data "schema_version") e.schemaVersion ∧
    IsMember MachineAction.members (valueAt data "action") e.action ∧
    IsMember MachinePhase.members (valueAt data "required_prior_phase") e.requiredPriorPhase ∧
    IsNullable (fun value (s : MachineSessionSnapshot) => s.val.DescribedBy py value)
      (valueAt data "session") e.session

/-- Approval evidence is decoded from the payloads that describe it. -/
theorem MachineApprovalEvidenceV1.fromJson_eq_ok_iff {e : MachineApprovalEvidenceV1} :
  MachineApprovalEvidenceV1.fromJson py payload = .ok e ↔ e.val.DescribedBy py payload
  := by
  have hsession (value : PyValue φ) (o : Option MachineSessionSnapshot) :
      nullable (sessionFromJson py) value = .ok o
        ↔ IsNullable (fun value (s : MachineSessionSnapshot) => s.val.DescribedBy py value)
            value o := by
    apply nullable_eq_ok_iff
    · intro v s
      apply sessionFromJson_eq_ok_iff
    · rintro s ⟨data, h, -⟩
      cases h
  apply object_bind_eq_ok_iff
  intro data h
  simp (disch := decide) only [item_eq h, ok_bind, Except.bind_eq_ok_iff, integer_eq_ok_iff,
    enumJson_eq_ok_iff, hsession, declared_eq_ok_iff, acceptIf_eq_ok_iff]
  constructor
  · rintro ⟨version, hversion, action, haction, phase, hphase, session, hsession, he⟩
    rw [he]
    exact ⟨hversion, haction, hphase, hsession⟩
  · rintro ⟨hversion, haction, hphase, hsession⟩
    exact ⟨_, hversion, _, haction, _, hphase, _, hsession, rfl⟩

/-- An exception escapes the decoder of approval evidence exactly when it escapes that of its
session and everything read before the session is as it should be. -/
theorem MachineApprovalEvidenceV1.escapes_fromJson_iff :
  Escapes (MachineApprovalEvidenceV1.fromJson py payload) ↔ EvidenceOverflows py payload
  := by
  have hsession (value : PyValue φ) :
      Escapes (nullable (sessionFromJson py) value) ↔ ApprovalSessionOverflows py value := by
    rw [escapes_nullable_iff, escapes_sessionFromJson_iff]
    rw [escapes_sessionFromJson_iff]
    apply not_approvalSessionOverflows_null
  apply escapes_object_bind_iff
  intro data h
  simp (disch := decide) only [item_eq h, ok_bind]
  simp only [escapes_bind_iff, not_escapes_integer, not_escapes_enumJson, hsession,
    not_escapes_declared, integer_eq_ok_iff, enumJson_eq_ok_iff, EvidenceHead, false_or,
    or_false, and_false, exists_false, exists_and_right, and_assoc]

/-! ### Challenges -/

/-- The values of a challenge that are read before its evidence are as they should be. -/
def ChallengeHead (data : List (PyStr × PyValue φ)) : Prop :=
  (∃ n, IsInteger 1 (valueAt data "schema_version") n) ∧
    (∃ t, IsUuid4 (valueAt data "challenge_id") t) ∧
    (∃ b : MachineApprovalBinding, b.val.DescribedBy (valueAt data "binding")) ∧
    (∃ p : AuthenticatedMachinePrincipal, p.DescribedBy (valueAt data "requester")) ∧
    (∃ p : KernelMachinePrincipal, p.DescribedBy (valueAt data "operator_principal")) ∧
    ∃ purpose, IsMember ApprovalPurpose.members (valueAt data "purpose") purpose

/-- The first of the readings of the monotonic clock in a challenge that is not such a
reading is an integer too large for a float. -/
def ClockOverflows (py : PyReading φ) (data : List (PyStr × PyValue φ)) : Prop :=
  FirstBad (fun v => ∃ q, IsMonotonic py v q) IsTooLarge
    [valueAt data "issued_monotonic", valueAt data "monotonic_deadline"]

/-- A challenge is as it should be up to a number that is too large: a coordinate of the
session of its evidence, or a reading of the monotonic clock. -/
def ChallengeOverflows (py : PyReading φ) (payload : PyValue φ) : Prop :=
  ∃ data, payload = .obj data ∧ HasExactly data challengeFields ∧ ChallengeHead data ∧
    (EvidenceOverflows py (valueAt data "evidence") ∨
      (∃ e : MachineApprovalEvidenceV1, e.val.DescribedBy py (valueAt data "evidence")) ∧
        (∃ t, IsDatetime py (valueAt data "issued_at") (.aware t)) ∧ ClockOverflows py data)

/-- An exception escapes the decoder of challenges exactly when the trusted principals are
valid, a number is too large for a float, and everything read before it is as it should
be. -/
theorem MachineApprovalChallenge.escapes_fromJson_iff {trusted : TrustedPrincipals} :
  Escapes (MachineApprovalChallenge.fromJson py trusted payload)
    ↔ trusted.check = .ok () ∧ ChallengeOverflows py payload
  := by
  rw [MachineApprovalChallenge.fromJson, escapes_bind_iff_of_closed not_escapes_declared]
  simp only [declared_eq_ok_iff, Except.exists_unit_iff]
  apply and_congr_right
  intro _
  apply escapes_object_bind_iff
  intro data h
  simp (disch := decide) only [item_eq h, ok_bind]
  simp only [escapes_bind_iff, not_escapes_integer, not_escapes_uuid4,
    MachineApprovalBinding.not_escapes_fromJson,
    AuthenticatedMachinePrincipal.not_escapes_fromJson,
    KernelMachinePrincipal.not_escapes_fromJson, not_escapes_enumJson,
    MachineApprovalEvidenceV1.escapes_fromJson_iff, not_escapes_datetimeJson,
    escapes_monotonic_iff, not_escapes_nullable, not_escapes_declared, not_escapes_pure,
    integer_eq_ok_iff, uuid4_eq_ok_iff, MachineApprovalBinding.fromJson_eq_ok_iff,
    AuthenticatedMachinePrincipal.fromJson_eq_ok_iff, KernelMachinePrincipal.fromJson_eq_ok_iff,
    enumJson_eq_ok_iff, MachineApprovalEvidenceV1.fromJson_eq_ok_iff, datetimeJson_eq_ok_iff,
    monotonic_eq_ok_iff, ChallengeHead, ClockOverflows, firstBad_cons_iff, not_firstBad_nil,
    not_false_eq_true, implies_true, false_or, or_false, and_false, exists_false,
    exists_and_right, and_assoc]

end

end DrawingMachine
