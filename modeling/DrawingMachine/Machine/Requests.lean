import DrawingMachine.Machine.Approvals

/-!
# Requests and admissions

A request is reserved once under the key of its principal. When it admits an action its
record stores an admission: an identifier and a nonce, bound to the action and to the
revision of the execution it may act on. A capability is what the holder of an admission
presents to claim it.
-/

namespace DrawingMachine

/-- The error of the machine repository. -/
def repositoryError (code message : String) : ErrorPayload where
  code := code
  category := .internal
  message := message
  retryable := false
  details := []

/-- The principal and the identifier of a request. -/
structure MachineRequestKey where
  principalUid : Nat
  principalGid : Nat
  requestId : String
  deriving DecidableEq, Repr

/-- The approval an admission rests on, as its response reports it. -/
structure ApprovalSummary where
  challengeId : String
  issuedAt : Timestamp
  approvedAt : Timestamp
  issuerPid : Nat
  consumerPid : Nat
  deriving DecidableEq, Repr

/-- The response of a request: an action was admitted, a challenge was issued, or the
machine was released. -/
inductive MachineResponse where
  | admitted (deduplicated : Bool) (executionId jobId : String)
      (jobRevision executionRevision : Nat) (phase : MachinePhase) (action : MachineAction)
      (approval : Option ApprovalSummary)
  | challenged (deduplicated : Bool) (executionId : String) (phase : MachinePhase)
      (challenge : MachineApprovalChallenge)
  | released (deduplicated : Bool) (executionId : String) (phase : MachinePhase)
  deriving DecidableEq, Repr

namespace MachineResponse

/-- The response as it is given again. -/
def deduplicate : MachineResponse → MachineResponse
  | .admitted _ executionId jobId jobRevision executionRevision phase action approval =>
      .admitted true executionId jobId jobRevision executionRevision phase action approval
  | .challenged _ executionId phase challenge => .challenged true executionId phase challenge
  | .released _ executionId phase => .released true executionId phase

/-- The challenge the operator approved, as the response names it. -/
def approvalChallengeId : MachineResponse → Option String
  | .admitted _ _ _ _ _ _ _ approval => approval.map ApprovalSummary.challengeId
  | .challenged _ _ _ _ => none
  | .released _ _ _ => none

end MachineResponse

/-- What is stored about a request. -/
structure MachineRequestRecord where
  key : MachineRequestKey
  requesterPid : Nat
  command : String
  argumentDigest : String
  executionId : Option String
  action : Option String
  admissionId : Option String
  dispatchNonce : Option String
  response : Option MachineResponse
  reservedAt : Timestamp
  completedAt : Option Timestamp := none
  claimedAt : Option Timestamp := none
  executionRevision : Option Nat := none
  serviceEpoch : Option String := none
  machineSessionEpoch : Option String := none
  invalidatedAt : Option Timestamp := none
  invalidationReason : Option String := none
  recoveryDisposition : Option RecoveryDisposition := none
  recoveryIntent : Option RecoveryIntent := none
  predecessorExecutionId : Option String := none
  deriving DecidableEq, Repr

/-- What the holder of an admission presents. -/
structure MachineAdmissionCapability where
  key : MachineRequestKey
  admissionId : String
  dispatchNonce : String
  executionId : String
  action : MachineAction
  executionRevision : Nat
  serviceEpoch : String
  machineSessionEpoch : String
  recoveryDisposition : Option RecoveryDisposition := none
  recoveryIntent : Option RecoveryIntent := none
  predecessorExecutionId : Option String := none
  deriving DecidableEq, Repr

/-- The action with the given name. -/
def MachineAction.parse (name : String) : Option MachineAction :=
  MachineAction.all.find? fun action => action.value = name

/-- An action is read back from its name. -/
@[simp] theorem MachineAction.parse_value (action : MachineAction) :
  MachineAction.parse action.value = some action
  := by
  cases action <;> rfl

/-- Actions with the same name are the same. -/
theorem MachineAction.value_injective : Function.Injective MachineAction.value := by
  intro a b h
  have hparse := congrArg MachineAction.parse h
  simpa using hparse

/-! ### Validation -/

/-- The error of a request that cannot be reserved. -/
def requestInvalid (message : String) : ErrorPayload :=
  repositoryError "MACHINE_REQUEST_INVALID" message

/-- The error of a capability that is malformed, or that no stored admission matches. -/
def admissionMismatch (message : String) : ErrorPayload :=
  repositoryError "MACHINE_ADMISSION_MISMATCH" message

namespace MachineRequestRecord

variable (r : MachineRequestRecord)

/-- Whether one of the fields that bind an execution is absent. -/
def lacksBinding : Bool :=
  r.executionId = none ∨ r.action = none ∨ r.executionRevision = none ∨
    r.serviceEpoch = none ∨ r.machineSessionEpoch = none

/-- Whether the recovery fields of a request that recovers agree: only a disposition that
transfers the machine is admitted, and it names the predecessor. -/
def recoveryAuthorityValid : Bool :=
  match r.recoveryDisposition, r.recoveryIntent with
  | some disposition, some intent =>
      allowedRecoveryDisposition intent disposition = true ∧
        (if r.admissionId ≠ none then
          disposition ≠ .release ∧ r.predecessorExecutionId ≠ none ∧
            r.predecessorExecutionId ≠ some ""
        else r.predecessorExecutionId = none)
  | _, _ => false

/-- Whether the request carries any recovery field. -/
def bindsRecovery : Bool :=
  r.recoveryDisposition ≠ none ∨ r.recoveryIntent ≠ none ∨ r.predecessorExecutionId ≠ none

/-- The checks of the binding of a request. -/
def checkBinding : Except ErrorPayload Unit :=
  if r.executionId ≠ none then do
    rejectIf (r.executionId = some "" ∨ r.action = some "" ∨ r.serviceEpoch = some "" ∨
        r.machineSessionEpoch = some "")
      (requestInvalid "machine admission binding strings must be non-empty")
    match r.action.bind MachineAction.parse with
    | none => .error (requestInvalid "machine admission action is unknown")
    | some .recover =>
        rejectIf (r.recoveryAuthorityValid = false)
          (requestInvalid "RECOVER request authority is inconsistent")
    | some _ =>
        rejectIf (r.bindsRecovery = true)
          (requestInvalid "only RECOVER may bind recovery authority")
  else
    rejectIf (r.bindsRecovery = true)
      (requestInvalid "unbound request cannot carry recovery authority")

/-- The checks of a request before it is reserved. -/
def validateRequest : Except ErrorPayload Unit := do
  rejectIf (r.requesterPid = 0 ∨ r.key.requestId = "" ∨ r.command = "" ∨
      r.argumentDigest.length ≠ 64)
    (requestInvalid "machine request reservation is invalid")
  rejectIf (r.claimedAt ≠ none ∨ r.invalidatedAt ≠ none ∨ r.invalidationReason ≠ none ∨
      ¬ (r.lacksBinding = true ↔ r.executionId = none) ∨
      ¬ (r.dispatchNonce = none ↔ r.admissionId = none) ∨
      (r.admissionId ≠ none ∧ r.executionId = none))
    (requestInvalid "machine request must reserve one initially unclaimed capability")
  r.checkBinding
  rejectIf (r.admissionId = some "" ∨ (r.admissionId ≠ none ∧ r.dispatchNonce = some ""))
    (requestInvalid "machine admission ID and nonce must be non-empty strings")

/-- A reserved request is neither claimed nor invalidated. -/
theorem fresh_of_validateRequest {r : MachineRequestRecord} (h : r.validateRequest = .ok ()) :
  r.claimedAt = none ∧ r.invalidatedAt = none
  := by
  simp only [validateRequest, Except.unit_bind_eq_ok_iff, rejectIf_eq_ok_iff, not_or,
    not_not, ne_eq] at h
  refine ⟨h.2.1.1, h.2.1.2.1⟩

/-- A reserved admission binds an execution, its revision and its action. -/
theorem binding_of_validateRequest {r : MachineRequestRecord} (h : r.validateRequest = .ok ())
    (ha : r.admissionId ≠ none) :
  r.executionId ≠ none ∧ r.action ≠ none ∧ r.executionRevision ≠ none
  := by
  simp only [validateRequest, Except.unit_bind_eq_ok_iff, rejectIf_eq_ok_iff, not_or,
    not_not, ne_eq] at h
  have hexec : r.executionId ≠ none := by
    intro hnone
    apply h.2.1.2.2.2.2.2
    refine ⟨ha, hnone⟩
  have hlacks : ¬ r.lacksBinding = true := by
    rw [h.2.1.2.2.2.1]
    apply hexec
  simp only [lacksBinding, decide_eq_true_eq, not_or] at hlacks
  refine ⟨hexec, hlacks.2.1, hlacks.2.2.1⟩

end MachineRequestRecord

namespace MachineAdmissionCapability

variable (c : MachineAdmissionCapability)

/-- Whether the recovery fields of a capability that recovers agree. -/
def recoveryAuthorityValid : Bool :=
  match c.recoveryDisposition, c.recoveryIntent with
  | some disposition, some intent =>
      disposition ≠ .release ∧ allowedRecoveryDisposition intent disposition = true ∧
        c.predecessorExecutionId ≠ none ∧ c.predecessorExecutionId ≠ some ""
  | _, _ => false

/-- The checks of the form of a capability. -/
def validateAdmissionCapability : Except ErrorPayload Unit := do
  rejectIf (c.key.requestId = "" ∨ c.admissionId = "" ∨ c.dispatchNonce = "" ∨
      c.executionId = "" ∨ c.serviceEpoch = "" ∨ c.machineSessionEpoch = "")
    (admissionMismatch "machine admission capability is malformed")
  if c.action = .recover then
    rejectIf (c.recoveryAuthorityValid = false)
      (admissionMismatch "recovery admission capability is malformed")
  else
    rejectIf (c.recoveryDisposition ≠ none ∨ c.recoveryIntent ≠ none ∨
        c.predecessorExecutionId ≠ none)
      (admissionMismatch "non-recovery capability carries recovery authority")

/-- Whether a stored request is the admission the capability presents. -/
def Matches (r : MachineRequestRecord) : Prop :=
  r.admissionId = some c.admissionId ∧ r.dispatchNonce = some c.dispatchNonce ∧
    r.executionId = some c.executionId ∧ r.action = some c.action.value ∧
    r.executionRevision = some c.executionRevision ∧
    r.serviceEpoch = some c.serviceEpoch ∧
    r.machineSessionEpoch = some c.machineSessionEpoch ∧
    r.recoveryDisposition = c.recoveryDisposition ∧ r.recoveryIntent = c.recoveryIntent ∧
    r.predecessorExecutionId = c.predecessorExecutionId

instance (r : MachineRequestRecord) : Decidable (c.Matches r) :=
  inferInstanceAs (Decidable (_ ∧ _))

end MachineAdmissionCapability

end DrawingMachine
