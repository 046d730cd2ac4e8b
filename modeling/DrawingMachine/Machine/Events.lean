import DrawingMachine.Machine.Models

/-!
# Events, audit payloads and progress

What is recorded beside an execution: an event for every revision, an audit payload for
every event, and the progress of a stream. Events and audit payloads come in two schema
versions; the second binds the whole authority of the event.
-/

namespace DrawingMachine

/-! ### Events -/

/-- The first version of the payload of an event. -/
structure MachineEventPayloadV1.Fields where
  schemaVersion : Nat
  requestId : Option String
  priorPhase : Option MachinePhase
  reasonCode : Option String
  deriving DecidableEq, Repr

/-- The checks of the first version. -/
def MachineEventPayloadV1.Fields.postInit (p : MachineEventPayloadV1.Fields) :
    Except ErrorPayload Unit := do
  checkSchemaVersion p.schemaVersion "event_payload.schema_version"
    (invalid "event payload schema version is unsupported")
  checkNullableString p.requestId "event_payload.request_id"
  checkNullableString p.reasonCode "event_payload.reason_code"

/-- The second version of the payload of an event. -/
structure MachineEventPayloadV2.Fields where
  requestId : String
  priorPhase : Option MachinePhase
  resultPhase : MachinePhase
  reasonCode : Option String
  schemaVersion : Nat := 2
  deriving DecidableEq, Repr

/-- The check of a schema version whose supported value is 2. -/
def checkSchemaVersion2 (value : Nat) (field : String) (unsupported : ErrorPayload) :
    Except ErrorPayload Unit := do
  checkInteger value field 1
  rejectIf (value ≠ 2) unsupported

/-- A schema version passes exactly when it is the supported one. -/
@[simp] theorem checkSchemaVersion2_eq_ok_iff {value : Nat} {field : String} {e : ErrorPayload} :
  checkSchemaVersion2 value field e = .ok () ↔ value = 2
  := by
  simp only [checkSchemaVersion2, Except.unit_bind_eq_ok_iff, checkInteger_eq_ok_iff,
    rejectIf_eq_ok_iff]
  omega

/-- The checks of the second version. -/
def MachineEventPayloadV2.Fields.postInit (p : MachineEventPayloadV2.Fields) :
    Except ErrorPayload Unit := do
  checkSchemaVersion2 p.schemaVersion "event_payload.schema_version"
    (invalid "event payload v2 schema version is unsupported")
  checkString p.requestId "event_payload.request_id"
  checkNullableString p.reasonCode "event_payload.reason_code"

/-- The payload of an event. -/
inductive MachineEventPayload where
  | v1 (payload : { p : MachineEventPayloadV1.Fields // p.postInit = .ok () })
  | v2 (payload : { p : MachineEventPayloadV2.Fields // p.postInit = .ok () })
  deriving DecidableEq, Repr

/-- The request an event belongs to. -/
def MachineEventPayload.requestId : MachineEventPayload → Option String
  | .v1 p => p.val.requestId
  | .v2 p => some p.val.requestId

/-- An event of an execution. -/
structure MachineEvent.Fields where
  schemaVersion : Nat
  eventId : String
  executionId : String
  jobId : String
  executionRevision : Nat
  eventType : String
  phase : MachinePhase
  action : Option MachineAction
  payload : MachineEventPayload
  occurredAt : Timestamp
  deriving DecidableEq, Repr

/-- The check of the phase of a payload of the second version. -/
def MachineEvent.Fields.checkResultPhase (e : MachineEvent.Fields) : Except ErrorPayload Unit :=
  match e.payload with
  | .v1 _ => .ok ()
  | .v2 p =>
      rejectIf (p.val.resultPhase ≠ e.phase)
        (invalid "event payload result phase must match event phase")

/-- The checks of an event. -/
def MachineEvent.Fields.postInit (e : MachineEvent.Fields) : Except ErrorPayload Unit := do
  checkSchemaVersion e.schemaVersion "event.schema_version"
    (invalidField "event schema version is unsupported" "event.schema_version")
  checkString e.eventId "event.event_id"
  checkString e.executionId "event.execution_id"
  checkString e.jobId "event.job_id"
  checkString e.eventType "event.event_type"
  e.checkResultPhase

/-- An event. -/
abbrev MachineEvent := { e : MachineEvent.Fields // e.postInit = .ok () }

/-! ### Audit payloads -/

/-- The first version of an audit payload. -/
structure MachineAuditPayloadV1.Fields where
  schemaVersion : Nat
  operation : String
  decision : String
  executionId : String
  jobId : String
  executionRevision : Nat
  requestId : Option String
  reasonCode : Option String
  eventId : String
  deriving DecidableEq, Repr

/-- The checks of the first version. -/
def MachineAuditPayloadV1.Fields.postInit (a : MachineAuditPayloadV1.Fields) :
    Except ErrorPayload Unit := do
  checkSchemaVersion a.schemaVersion "audit.schema_version"
    (invalidField "audit schema version is unsupported" "audit.schema_version")
  checkString a.operation "audit.operation"
  checkString a.decision "audit.decision"
  checkString a.executionId "audit.execution_id"
  checkString a.jobId "audit.job_id"
  checkNullableString a.requestId "audit.request_id"
  checkNullableString a.reasonCode "audit.reason_code"
  checkString a.eventId "audit.event_id"

/-- The second version of an audit payload. -/
structure MachineAuditPayloadV2.Fields where
  operation : String
  decision : String
  executionId : String
  jobId : String
  executionRevision : Nat
  frozenReadyRevision : Nat
  requestId : String
  eventId : String
  requesterUid : Nat
  requesterGid : Nat
  requesterPid : Nat
  issuerPid : Option Nat
  consumerPid : Option Nat
  priorPhase : Option MachinePhase
  resultPhase : MachinePhase
  action : MachineAction
  recoveryDisposition : Option RecoveryDisposition
  approvalChallengeId : Option String
  challengeIssuedAt : Option Timestamp
  approvedAt : Option Timestamp
  applicationDigest : String
  machineDigest : String
  providerDigest : String
  gcodeSha256 : String
  serviceEpoch : String
  machineSessionEpoch : String
  applicationVersion : String
  protocolVersion : Nat
  commandSummary : String
  errorCode : Option String
  schemaVersion : Nat := 2
  deriving DecidableEq, Repr

namespace MachineAuditPayloadV2.Fields

variable (a : MachineAuditPayloadV2.Fields)

/-- The number of bytes a text of an audit payload may have. -/
def textLimit : Nat := 4096

/-- The check of the size of a text. -/
def checkTextLimit (value field : String) : Except ErrorPayload Unit :=
  rejectIf (textLimit < value.utf8ByteSize)
    (invalid ("audit." ++ field ++ " exceeds its bounded UTF-8 limit"))

/-- The checks of the texts. -/
def checkTexts : Except ErrorPayload Unit := do
  checkString a.operation "audit.operation"
  checkString a.decision "audit.decision"
  checkString a.executionId "audit.execution_id"
  checkString a.jobId "audit.job_id"
  checkString a.requestId "audit.request_id"
  checkString a.eventId "audit.event_id"
  checkString a.applicationDigest "audit.application_digest"
  checkString a.machineDigest "audit.machine_digest"
  checkString a.providerDigest "audit.provider_digest"
  checkString a.gcodeSha256 "audit.gcode_sha256"
  checkString a.serviceEpoch "audit.service_epoch"
  checkString a.machineSessionEpoch "audit.machine_session_epoch"
  checkString a.applicationVersion "audit.application_version"
  checkString a.commandSummary "audit.command_summary"
  checkDigest a.applicationDigest "audit.application_digest"
  checkDigest a.machineDigest "audit.machine_digest"
  checkDigest a.providerDigest "audit.provider_digest"
  checkDigest a.gcodeSha256 "audit.gcode_sha256"
  checkTextLimit a.operation "operation"
  checkTextLimit a.decision "decision"
  checkTextLimit a.commandSummary "command_summary"
  checkSome a.errorCode fun code => checkTextLimit code "error_code"

/-- The checks of the numbers. -/
def checkNumbers : Except ErrorPayload Unit := do
  checkInteger a.frozenReadyRevision "audit.frozen_ready_revision" 1
  checkInteger a.requesterPid "audit.requester_pid" 1
  checkSome a.issuerPid fun pid => checkInteger pid "audit.issuer_pid" 1
  checkSome a.consumerPid fun pid => checkInteger pid "audit.consumer_pid" 1

/-- The checks of the approval the payload names. -/
def checkApproval : Except ErrorPayload Unit := do
  rejectIf (¬ (a.action = .recover ↔ a.recoveryDisposition ≠ none))
    (invalid "only RECOVER audit authority binds one recovery disposition")
  checkNullableString a.approvalChallengeId "audit.approval_challenge_id"
  rejectIf (¬ (a.approvalChallengeId = none ↔ a.challengeIssuedAt = none))
    (invalid "audit challenge identity and issuance time must be atomic")
  rejectIf (a.consumerPid ≠ none ∧ (a.approvalChallengeId = none ∨ a.approvedAt = none))
    (invalid "audit consumer PID requires consumed operator approval evidence")
  rejectIf (a.consumerPid = none ∧ a.approvedAt ≠ none)
    (invalid "audit approval decision time requires a consumer PID")
  checkSome a.challengeIssuedAt fun issued =>
    checkSome a.approvedAt fun approved =>
      rejectIf (approved < issued)
        (invalid "audit approval decision cannot precede challenge issuance")

/-- The checks of the second version. -/
def postInit : Except ErrorPayload Unit := do
  checkSchemaVersion2 a.schemaVersion "audit.schema_version"
    (invalid "machine audit v2 schema version is unsupported")
  a.checkTexts
  a.checkNumbers
  a.checkApproval
  rejectIf (a.protocolVersion ≠ 1) (invalid "audit protocol_version must be exactly 1")
  checkNullableString a.errorCode "audit.error_code"

end MachineAuditPayloadV2.Fields

/-- An audit payload. -/
inductive MachineAuditPayload where
  | v1 (payload : { a : MachineAuditPayloadV1.Fields // a.postInit = .ok () })
  | v2 (payload : { a : MachineAuditPayloadV2.Fields // a.postInit = .ok () })
  deriving DecidableEq, Repr

namespace MachineAuditPayload

/-- The execution an audit payload is about. -/
def executionId : MachineAuditPayload → String
  | .v1 a => a.val.executionId
  | .v2 a => a.val.executionId

/-- The job an audit payload is about. -/
def jobId : MachineAuditPayload → String
  | .v1 a => a.val.jobId
  | .v2 a => a.val.jobId

/-- The revision an audit payload is about. -/
def executionRevision : MachineAuditPayload → Nat
  | .v1 a => a.val.executionRevision
  | .v2 a => a.val.executionRevision

/-- The event an audit payload belongs to. -/
def eventId : MachineAuditPayload → String
  | .v1 a => a.val.eventId
  | .v2 a => a.val.eventId

/-- The request an audit payload belongs to. -/
def requestId : MachineAuditPayload → Option String
  | .v1 a => a.val.requestId
  | .v2 a => some a.val.requestId

/-- The ready revision bound by an audit payload; the first version binds none. -/
def frozenReadyRevision : MachineAuditPayload → Option Nat
  | .v1 _ => none
  | .v2 a => some a.val.frozenReadyRevision

end MachineAuditPayload

/-! ### Progress -/

/-- How far the stream of an execution has got. -/
structure MachineProgress.Fields where
  schemaVersion : Nat
  executionId : String
  executionRevision : Nat
  totalLines : Nat
  acknowledgedLines : Nat
  okCount : Nat
  errorCount : Nat
  percent : ℚ
  lastSourceLine : Option Nat
  lastCommand : Option String
  lastEventAt : Timestamp
  failure : Option MachineFailureEvidenceV1
  deriving DecidableEq, Repr

/-- The share of acknowledged lines, in percent. -/
def progressPercent (acknowledged total : Nat) : ℚ :=
  if total = 0 then 100 else acknowledged * 100 / total

namespace MachineProgress.Fields

variable (p : MachineProgress.Fields)

/-- The checks of the counters. -/
def checkCounters : Except ErrorPayload Unit := do
  rejectIf (p.acknowledgedLines ≠ p.okCount ∨
      (p.totalLines < p.acknowledgedLines + p.errorCount ∧
        ¬ (p.acknowledgedLines = p.totalLines ∧ p.errorCount = 1)))
    (invalid "progress counters are inconsistent")
  rejectIf (¬ (p.percent - progressPercent p.acknowledgedLines p.totalLines ≤ 1 / 1000000000 ∧
      progressPercent p.acknowledgedLines p.totalLines - p.percent ≤ 1 / 1000000000))
    (invalid "progress.percent must exactly reflect acknowledged lines")

/-- The checks of the last attempted line. -/
def checkLastLine : Except ErrorPayload Unit := do
  checkSome p.lastSourceLine fun line => checkInteger line "progress.last_source_line" 1
  checkNullableString p.lastCommand "progress.last_command"
  rejectIf (¬ (0 < p.acknowledgedLines + p.errorCount ↔
      p.lastSourceLine ≠ none ∧ p.lastCommand ≠ none))
    (invalid "progress last source line and command must track the last attempted line")

/-- The checks of progress. -/
def postInit : Except ErrorPayload Unit := do
  checkSchemaVersion p.schemaVersion "progress.schema_version"
    (invalidField "progress schema version is unsupported" "progress.schema_version")
  checkString p.executionId "progress.execution_id"
  p.checkCounters
  p.checkLastLine
  rejectIf (¬ (0 < p.errorCount ↔ p.failure ≠ none))
    (invalid "progress failure evidence must match error_count")

end MachineProgress.Fields

/-- Progress of a stream. -/
abbrev MachineProgress := { p : MachineProgress.Fields // p.postInit = .ok () }

end DrawingMachine
