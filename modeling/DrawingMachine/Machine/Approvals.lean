import Mathlib.Data.Rat.Defs
import Mathlib.Algebra.Order.Ring.Rat
import Mathlib.Algebra.Order.Group.Abs
import DrawingMachine.Machine.Models

/-!
# Approvals

An approval challenge binds one action to one revision of one execution. It is issued
pending, and decided once: the operator consumes it before it expires, or it is
superseded or expires. The decision functions say when each decision may be taken; a
decision carries the challenge it expects and the challenge it results in, which differ
in the decision alone.

The wall clock counts microseconds, and the monotonic clock is read in seconds as a
rational number.
-/

namespace DrawingMachine

/-- The status of a challenge. -/
inductive ApprovalStatus where
  | pending | consumed | superseded | expired
  deriving DecidableEq, Repr

/-- What a challenge asks the operator to approve. -/
inductive ApprovalPurpose where
  | home | zcal | zconfirm | stream | homeZ | recover
  deriving DecidableEq, Repr

/-- The phase in which an action is approved; preparing a session needs no approval. -/
def approvalPhase : MachineAction → Option MachinePhase
  | .prepareSession => none
  | .home => some .awaitingHomeApproval
  | .zcal => some .awaitingZcalApproval
  | .zconfirm => some .awaitingZconfirmApproval
  | .stream => some .awaitingStreamApproval
  | .homeZ => some .awaitingHomeZApproval
  | .recover => some .recoveryRequired

/-- The purpose of the challenge of an action. -/
def approvalPurpose : MachineAction → Option ApprovalPurpose
  | .prepareSession => none
  | .home => some .home
  | .zcal => some .zcal
  | .zconfirm => some .zconfirm
  | .stream => some .stream
  | .homeZ => some .homeZ
  | .recover => some .recover

/-- The phase in which an action is approved, or the error of an action without one. -/
def expectedPhase (action : MachineAction) : Except ErrorPayload MachinePhase :=
  match approvalPhase action with
  | some phase => .ok phase
  | none => .error (invalidField "machine action is not separately approvable" "approval.action")

/-- The purpose of the challenge of an action, or the error of an action without one. -/
def purposeFor (action : MachineAction) : Except ErrorPayload ApprovalPurpose :=
  match approvalPurpose action with
  | some purpose => .ok purpose
  | none =>
      .error (invalidField "machine action has no fixed approval purpose" "approval.action")

/-! ### Principals -/

/-- A configured user and group. -/
structure KernelMachinePrincipal where
  uid : Nat
  gid : Nat
  deriving DecidableEq, Repr

/-- The user, group and process of an authenticated peer. -/
structure AuthenticatedMachinePrincipal where
  uid : Nat
  gid : Nat
  pid : Nat
  pid_pos : 1 ≤ pid
  deriving DecidableEq, Repr

/-- The part of a peer that does not change from process to process. -/
def AuthenticatedMachinePrincipal.stablePrincipal (p : AuthenticatedMachinePrincipal) :
    KernelMachinePrincipal where
  uid := p.uid
  gid := p.gid

/-- Whether two principals share a user or a group. -/
def KernelMachinePrincipal.overlaps (a b : KernelMachinePrincipal) : Bool :=
  a.uid = b.uid ∨ a.gid = b.gid

/-! ### Bindings -/

/-- What a challenge authorises: one action on one revision of one execution. -/
structure MachineApprovalBinding.Fields where
  executionId : String
  executionRevision : Nat
  action : MachineAction
  recoveryDisposition : Option RecoveryDisposition
  requiredPriorPhase : MachinePhase
  serviceEpoch : String
  machineSessionEpoch : String
  jobId : String
  readyRevision : Nat
  applicationDigest : String
  machineDigest : String
  providerDigest : String
  gcodeSha256 : String
  schemaVersion : Nat := 1
  deriving DecidableEq, Repr

/-- The checks of a binding. -/
def MachineApprovalBinding.Fields.postInit (b : MachineApprovalBinding.Fields) :
    Except ErrorPayload Unit := do
  checkSchemaVersion b.schemaVersion "approval_binding.schema_version"
    (invalidField "approval binding schema version is unsupported"
      "approval_binding.schema_version")
  checkString b.executionId "approval_binding.execution_id"
  let expected ← expectedPhase b.action
  rejectIf (b.requiredPriorPhase ≠ expected)
    (invalidField "approval binding has the wrong required prior phase"
      "approval_binding.required_prior_phase")
  if b.action = .recover then
    rejectIf (b.recoveryDisposition = none)
      (invalidField "RECOVER approval requires a disposition"
        "approval_binding.recovery_disposition")
  else
    rejectIf (b.recoveryDisposition ≠ none)
      (invalid "only RECOVER approval may bind a recovery disposition")
  checkString b.serviceEpoch "approval_binding.service_epoch"
  checkString b.machineSessionEpoch "approval_binding.machine_session_epoch"
  checkString b.jobId "approval_binding.job_id"
  checkInteger b.readyRevision "approval_binding.ready_revision" 1
  checkDigest b.applicationDigest "approval_binding.application_digest"
  checkDigest b.machineDigest "approval_binding.machine_digest"
  checkDigest b.providerDigest "approval_binding.provider_digest"
  checkDigest b.gcodeSha256 "approval_binding.gcode_sha256"

/-- A binding. -/
abbrev MachineApprovalBinding :=
  { b : MachineApprovalBinding.Fields // b.postInit = .ok () }

/-! ### Evidence -/

/-- What was observed of the machine when the challenge was issued. -/
structure MachineApprovalEvidenceV1.Fields where
  schemaVersion : Nat
  action : MachineAction
  requiredPriorPhase : MachinePhase
  session : Option MachineSessionSnapshot
  deriving DecidableEq, Repr

/-- The checks of the evidence: a motion rests on a stable session, a recovery on none. -/
def MachineApprovalEvidenceV1.Fields.postInit (e : MachineApprovalEvidenceV1.Fields) :
    Except ErrorPayload Unit := do
  checkSchemaVersion e.schemaVersion "approval_evidence.schema_version"
    (invalidField "approval evidence schema version is unsupported"
      "approval_evidence.schema_version")
  let expected ← expectedPhase e.action
  rejectIf (e.requiredPriorPhase ≠ expected)
    (invalid "approval evidence has the wrong required prior phase")
  if e.action = .recover then
    rejectIf (e.session ≠ none) (invalid "RECOVER approval evidence does not use session evidence")
  else
    match e.session with
    | none => .error (invalid "motion approval requires exact typed session evidence")
    | some s =>
        rejectIf (s.val.stabilized = false)
          (invalid "approval session evidence must be stabilized")

/-- Evidence of a challenge. -/
abbrev MachineApprovalEvidenceV1 :=
  { e : MachineApprovalEvidenceV1.Fields // e.postInit = .ok () }

/-- The check of the evidence against the binding it supports. -/
def validateEvidenceBinding (evidence : MachineApprovalEvidenceV1)
    (binding : MachineApprovalBinding) : Except ErrorPayload Unit := do
  rejectIf (evidence.val.action ≠ binding.val.action ∨
      evidence.val.requiredPriorPhase ≠ binding.val.requiredPriorPhase)
    (invalid "approval evidence does not match its authority binding")
  checkSome evidence.val.session fun s =>
    rejectIf (s.val.executionId ≠ binding.val.executionId ∨
        s.val.machineSessionEpoch ≠ binding.val.machineSessionEpoch)
      (invalid "approval session evidence does not match execution/session binding")

/-! ### Challenges -/

/-- The fields of a challenge. -/
structure MachineApprovalChallenge.Fields where
  schemaVersion : Nat
  challengeId : String
  binding : MachineApprovalBinding
  requester : AuthenticatedMachinePrincipal
  operatorPrincipal : KernelMachinePrincipal
  purpose : ApprovalPurpose
  evidence : MachineApprovalEvidenceV1
  issuedAt : Timestamp
  issuedMonotonic : ℚ
  monotonicDeadline : ℚ
  expiresAt : Timestamp
  status : ApprovalStatus
  statusChangedAt : Option Timestamp
  consumer : Option AuthenticatedMachinePrincipal
  deriving DecidableEq, Repr

/-- The check of a reading of the monotonic clock. -/
def checkMonotonic (value : ℚ) (field : String) : Except ErrorPayload Unit :=
  rejectIf (value < 0)
    (invalidField (field ++ " must be a non-negative monotonic value") field)

/-- A number of microseconds in seconds. -/
def seconds (microseconds : Int) : ℚ := (microseconds : ℚ) / 1000000

/-- The check of the lifetime of a challenge on both of its clocks. -/
def validateApprovalDuration (issuedAt expiresAt : Timestamp)
    (issuedMonotonic monotonicDeadline : ℚ) : Except ErrorPayload Unit := do
  let wallSeconds := seconds (expiresAt - issuedAt)
  let monotonicSeconds := monotonicDeadline - issuedMonotonic
  rejectIf (¬ (5 ≤ wallSeconds ∧ wallSeconds ≤ 900) ∨
      ¬ (5 ≤ monotonicSeconds ∧ monotonicSeconds ≤ 900))
    (invalid "approval duration must be from 5 to 900 seconds")
  rejectIf (1 / 10000000 < |wallSeconds - monotonicSeconds|)
    (invalid "approval wall and monotonic durations must be equivalent")

/-- A text that is the canonical form of a random UUID. -/
def CanonicalUuid4 (s : String) : Prop :=
  s.toList.length = 36 ∧
    (∀ p ∈ s.toList.zipIdx,
      if p.2 ∈ [8, 13, 18, 23] then p.1 = '-'
      else if p.2 = 14 then p.1 = '4'
      else if p.2 = 19 then p.1 ∈ ['8', '9', 'a', 'b']
      else ('0'.toNat ≤ p.1.toNat ∧ p.1.toNat ≤ '9'.toNat) ∨
        ('a'.toNat ≤ p.1.toNat ∧ p.1.toNat ≤ 'f'.toNat))

instance (s : String) : Decidable (CanonicalUuid4 s) :=
  inferInstanceAs (Decidable (_ ∧ _))

/-- The check of an identifier that is a random UUID. -/
def checkUuid4 (value field : String) : Except ErrorPayload Unit := do
  checkString value field
  rejectIf (¬ CanonicalUuid4 value)
    (invalidField (field ++ " must be a canonical UUID4") field)

namespace MachineApprovalChallenge.Fields

variable (c : MachineApprovalChallenge.Fields)

/-- The checks of the fields of the decision against the status. -/
def checkDecision : Except ErrorPayload Unit :=
  match c.status with
  | .pending =>
      rejectIf (c.statusChangedAt ≠ none ∨ c.consumer ≠ none)
        (invalid "pending approval cannot carry decision metadata")
  | .consumed =>
      match c.statusChangedAt, c.consumer with
      | some changed, some consumer => do
          rejectIf (consumer.stablePrincipal ≠ c.operatorPrincipal)
            (invalid "consumed approval principal must be the configured operator")
          rejectIf (c.expiresAt ≤ changed)
            (invalid "consumed approval decision must precede wall expiry")
      | _, _ => .error (invalid "consumed approval requires consumer and decision time")
  | status =>
      match c.statusChangedAt with
      | none => .error (invalid "non-pending approval requires a decision time")
      | some changed => do
          rejectIf (c.consumer ≠ none) (invalid "non-consumed approval cannot carry a consumer")
          rejectIf (status = .superseded ∧ c.expiresAt ≤ changed)
            (invalid "SUPERSEDED decision must strictly precede wall expiry")

/-- The checks of a challenge. -/
def postInit : Except ErrorPayload Unit := do
  checkSchemaVersion c.schemaVersion "approval.schema_version"
    (invalidField "approval schema version is unsupported" "approval.schema_version")
  checkUuid4 c.challengeId "approval.challenge_id"
  let purpose ← purposeFor c.binding.val.action
  rejectIf (c.purpose ≠ purpose) (invalid "approval purpose does not match the action")
  validateEvidenceBinding c.evidence c.binding
  checkSome c.evidence.val.session fun s =>
    rejectIf (c.issuedAt < s.val.observedAt)
      (invalid "approval session evidence cannot be observed after challenge issue time")
  checkMonotonic c.issuedMonotonic "approval.issued_monotonic"
  checkMonotonic c.monotonicDeadline "approval.monotonic_deadline"
  validateApprovalDuration c.issuedAt c.expiresAt c.issuedMonotonic c.monotonicDeadline
  checkSome c.statusChangedAt fun changed =>
    rejectIf (changed < c.issuedAt)
      (invalid "approval status change cannot precede issue time")
  c.checkDecision

/-- The challenge before any decision. -/
def undecided : MachineApprovalChallenge.Fields :=
  { c with status := .pending, statusChangedAt := none, consumer := none }

end MachineApprovalChallenge.Fields

/-- A challenge. -/
abbrev MachineApprovalChallenge :=
  { c : MachineApprovalChallenge.Fields // c.postInit = .ok () }

/-- Build a challenge from its fields. -/
def MachineApprovalChallenge.build (c : MachineApprovalChallenge.Fields) :
    Except ErrorPayload MachineApprovalChallenge :=
  acceptIf MachineApprovalChallenge.Fields.postInit c

/-! ### Decisions -/

/-- A decision on a pending challenge: it changes the decision and nothing else. -/
structure MachineApprovalDecision where
  expected : MachineApprovalChallenge
  result : MachineApprovalChallenge
  expected_pending : expected.val.status = .pending
  result_decided : result.val.status ≠ .pending
  same_authority : result.val.undecided = expected.val

/-- Build a decision from the challenge it expects and the one it results in. -/
def MachineApprovalDecision.build (expected result : MachineApprovalChallenge) :
    Except ErrorPayload MachineApprovalDecision :=
  if he : expected.val.status ≠ .pending then
    .error (invalid "approval decision expected state must be pending")
  else if hr : result.val.status = .pending then
    .error (invalid "approval decision result must be terminal")
  else if hs : result.val.undecided ≠ expected.val then
    .error (invalid "approval decision cannot mutate challenge authority")
  else
    .ok ⟨expected, result, Decidable.of_not_not he, hr, Decidable.of_not_not hs⟩

/-- Whether the challenge has expired on either clock at the given readings; a challenge
from the future is refused. -/
def currentTimes (challenge : MachineApprovalChallenge) (wallNow : Timestamp)
    (monotonicNow : ℚ) : Except ErrorPayload Bool := do
  checkMonotonic monotonicNow "approval.monotonic_now"
  rejectIf (wallNow < challenge.val.issuedAt ∨ monotonicNow < challenge.val.issuedMonotonic)
    (denied "MACHINE_APPROVAL_FUTURE" "approval issue time is in the future")
  return decide (challenge.val.expiresAt ≤ wallNow ∨
    challenge.val.monotonicDeadline ≤ monotonicNow)

/-- The check that a challenge is still pending. -/
def checkPending (challenge : MachineApprovalChallenge) : Except ErrorPayload Unit :=
  rejectIf (challenge.val.status ≠ .pending)
    (denied "MACHINE_APPROVAL_REPLAY" "approval challenge must be pending")

/-- The arguments of issuing a challenge. -/
structure IssueApproval where
  challengeId : String
  binding : MachineApprovalBinding
  requester : AuthenticatedMachinePrincipal
  automationPrincipal : KernelMachinePrincipal
  operatorPrincipal : KernelMachinePrincipal
  evidence : MachineApprovalEvidenceV1
  issuedAt : Timestamp
  monotonicNow : ℚ
  ttlSeconds : Nat

/-- Issue a pending challenge. -/
def issueApproval (a : IssueApproval) : Except ErrorPayload MachineApprovalChallenge := do
  rejectIf (a.automationPrincipal.overlaps a.operatorPrincipal = true)
    (denied "MACHINE_APPROVAL_ROLES_NOT_DISJOINT"
      "automation and operator UID/GID roles must be disjoint")
  rejectIf (a.requester.stablePrincipal ∉ [a.automationPrincipal, a.operatorPrincipal])
    (denied "MACHINE_APPROVAL_REQUESTER_DENIED"
      "approval requester is not configured automation or operator")
  validateEvidenceBinding a.evidence a.binding
  checkMonotonic a.monotonicNow "approval.monotonic_now"
  rejectIf (¬ (5 ≤ a.ttlSeconds ∧ a.ttlSeconds ≤ 900))
    (invalidField "approval TTL must be an integer from 5 to 900" "approval.ttl_seconds")
  checkUuid4 a.challengeId "approval.challenge_id"
  let purpose ← purposeFor a.binding.val.action
  MachineApprovalChallenge.build
    { schemaVersion := 1
      challengeId := a.challengeId
      binding := a.binding
      requester := a.requester
      operatorPrincipal := a.operatorPrincipal
      purpose := purpose
      evidence := a.evidence
      issuedAt := a.issuedAt
      issuedMonotonic := a.monotonicNow
      monotonicDeadline := a.monotonicNow + a.ttlSeconds
      expiresAt := a.issuedAt + a.ttlSeconds * 1000000
      status := .pending
      statusChangedAt := none
      consumer := none }

/-- Consume a pending challenge: only the operator, only for the current binding, and
only before the challenge expires on either clock. -/
def consumeApproval (challenge : MachineApprovalChallenge)
    (currentBinding : MachineApprovalBinding) (consumer : AuthenticatedMachinePrincipal)
    (operatorPrincipal : KernelMachinePrincipal) (wallNow : Timestamp) (monotonicNow : ℚ) :
    Except ErrorPayload MachineApprovalDecision := do
  checkPending challenge
  rejectIf (currentBinding ≠ challenge.val.binding)
    (denied "MACHINE_APPROVAL_BINDING_MISMATCH"
      "approval current binding does not match challenge binding")
  rejectIf (operatorPrincipal ≠ challenge.val.operatorPrincipal)
    (denied "MACHINE_APPROVAL_OPERATOR_CHANGED" "approval configured operator binding changed")
  rejectIf (consumer.stablePrincipal ≠ operatorPrincipal)
    (denied "MACHINE_APPROVAL_CONSUMER_DENIED"
      "only the configured operator may consume approval")
  let expired ← currentTimes challenge wallNow monotonicNow
  rejectIf (expired = true)
    (denied "MACHINE_APPROVAL_EXPIRED" "approval challenge is expired")
  let result ← MachineApprovalChallenge.build
    { challenge.val with
      status := .consumed
      statusChangedAt := some wallNow
      consumer := some consumer }
  MachineApprovalDecision.build challenge result

/-- Supersede a pending challenge that has not expired. -/
def supersedeApproval (challenge : MachineApprovalChallenge) (wallNow : Timestamp)
    (monotonicNow : ℚ) : Except ErrorPayload MachineApprovalDecision := do
  checkPending challenge
  let expired ← currentTimes challenge wallNow monotonicNow
  rejectIf (expired = true)
    (denied "MACHINE_APPROVAL_EXPIRED" "expired approval must be expired, not superseded")
  let result ← MachineApprovalChallenge.build
    { challenge.val with status := .superseded, statusChangedAt := some wallNow }
  MachineApprovalDecision.build challenge result

/-- Expire a pending challenge that has expired. -/
def expireApproval (challenge : MachineApprovalChallenge) (wallNow : Timestamp)
    (monotonicNow : ℚ) : Except ErrorPayload MachineApprovalDecision := do
  checkPending challenge
  let expired ← currentTimes challenge wallNow monotonicNow
  rejectIf (expired = false)
    (denied "MACHINE_APPROVAL_NOT_EXPIRED" "approval challenge is not expired")
  let result ← MachineApprovalChallenge.build
    { challenge.val with status := .expired, statusChangedAt := some wallNow }
  MachineApprovalDecision.build challenge result

end DrawingMachine
