import DrawingMachine.Application.MotionRecovery
import DrawingMachine.Base.Durable
import DrawingMachine.Fluidnc.Serial
import DrawingMachine.Gcode.StreamProgram

/-!
# The progress of a stream

While a session streams a program it reports every acknowledged command to a callback. The
coordinator checks the report against the program, and keeps it as the pending progress; from
time to time it makes the progress durable. When the stream fails, a last row tells how far it
has got, and why it failed.

The run starts when the session is called, after the boundary of the first write is durable. Of
the session nothing is known: it may report anything, and end in any way. Nor is anything known
of the clocks, the repository and the publisher, which may raise whenever they are asked.
-/

namespace DrawingMachine

open Durable

/-! ### States -/

/-- What a run does that its durable progress is compared with: the constructor of progress is
called, a report of the session is accepted, progress becomes durable. -/
inductive ProgressEvent where
  | built (fields : MachineProgress.Fields)
  | accepted
  | persisted (value : MachineProgress)
  deriving DecidableEq

/-- Whether a report is accepted. -/
def ProgressEvent.isAccepted : ProgressEvent → Bool
  | .accepted => true
  | _ => false

/-- The number of reports that are accepted. -/
def acceptedCount (history : List ProgressEvent) : Nat := history.countP ProgressEvent.isAccepted

/-- The row of an event that makes one. -/
def ProgressEvent.row? : ProgressEvent → Option MachineProgress
  | .persisted value => some value
  | _ => none

/-- The durable progress. -/
def progressRows (history : List ProgressEvent) : List MachineProgress :=
  history.filterMap ProgressEvent.row?

/-- What the coordinator keeps of the progress of an execution: whether the callback is alive,
the pending progress, the last checkpoint and the durable progress. The history is what it has
done so far. -/
structure StreamProgressState where
  active : Bool
  pending : Option MachineProgress
  checkpoint : Nat × ℚ
  progress : Option MachineProgress
  history : List ProgressEvent

namespace StreamProgressState

/-- The state when the session is called. -/
def start (monotonic : ℚ) : StreamProgressState where
  active := true
  pending := none
  checkpoint := (0, monotonic)
  progress := none
  history := []

/-- The state after one more event. -/
def note (s : StreamProgressState) (e : ProgressEvent) : StreamProgressState :=
  { s with history := s.history ++ [e] }

end StreamProgressState

/-- The number of acknowledged commands of progress, if there is any. -/
def acknowledgedOf (progress : Option MachineProgress) : Nat :=
  match progress with
  | none => 0
  | some value => value.val.acknowledgedLines

/-! ### Reports of the session -/

/-- A call of the callback: the value it is given, which may be no update, and what the clocks,
the repository and the publisher answer meanwhile. -/
structure ProgressCall where
  update : Option Serial.StreamProgressUpdate
  now : Except Raised Timestamp
  monotonic : Except Raised ℚ
  append : Except Raised Unit
  publish : Except Raised Unit

/-- What a stream is driven with: the execution at the boundary of the first write, and the
program, which is built from validated bytes. -/
structure StreamDrive where
  sha256 : List UInt8 → String
  current : MachineExecution
  program : ValidatedStreamProgram
  postRunHomeZ : Bool
  program_built : ∃ ucd source summary digest,
    buildValidatedStreamProgram ucd sha256 source summary digest = .ok program

/-- The error of a report or of a count that does not fit. -/
def progressInvalid (message : String) : Raised := chainFail "STREAM_PROGRESS_INVALID" message

/-- Build progress. -/
def buildProgress (fields : MachineProgress.Fields) :
    Durable StreamProgressState Raised MachineProgress := do
  write fun s => s.note (.built fields)
  inspect fun _ => raising (acceptIf MachineProgress.Fields.postInit fields)

/-- Make progress durable, in a transaction of its own. -/
def appendProgress (answer : Except Raised Unit) (value : MachineProgress) :
    Durable StreamProgressState Raised Unit := do
  inspect fun _ => answer
  write fun s => s.note (.persisted value)

namespace StreamDrive

variable (d : StreamDrive)

/-- The number of commands. -/
def total : Nat := d.program.commands.length

/-- The progress that a report makes when the given number of commands is acknowledged. -/
def progressFields (acknowledged : Nat) (call : ProgressCall) :
    Except Raised MachineProgress.Fields :=
  match call.update with
  | none => .error (progressInvalid "STREAM progress must bind the exact session epoch")
  | some update => do
      rejectIf (update.machineSessionEpoch ≠ d.current.val.machineSessionEpoch)
        (progressInvalid "STREAM progress must bind the exact session epoch")
      let expectedAck := acknowledged + 1
      rejectIf (update.acknowledgedCommands ≠ expectedAck ∨ d.total < expectedAck)
        (progressInvalid "STREAM progress must advance one acknowledged command at a time")
      match d.program.commands[expectedAck - 1]? with
      | none => .error .other
      | some command => do
          rejectIf (update.sourceLine ≠ command.sourceLine ∨
              update.commandDigest ≠ d.sha256 (Text.encode command.command))
            (progressInvalid "STREAM progress does not match the immutable program prefix")
          return {
            schemaVersion := 1
            executionId := d.current.val.executionId
            executionRevision := d.current.val.revision
            totalLines := d.total
            acknowledgedLines := expectedAck
            okCount := expectedAck
            errorCount := 0
            percent := progressPercent expectedAck d.total
            lastSourceLine := some command.sourceLine
            lastCommand := some (String.ofList command.command)
            lastEventAt := ← call.now
            failure := none }

/-- Record a report of the session. It is durable at the end of the program, after a hundred
commands, and after two seconds. -/
def recordProgress (call : ProgressCall) : Durable StreamProgressState Raised Unit := do
  let fields ← inspect fun s => d.progressFields (acknowledgedOf s.pending) call
  let value ← buildProgress fields
  let (checkpointAck, checkpointAt) ← inspect fun s => .ok s.checkpoint
  let monotonic ← inspect fun _ => call.monotonic
  write fun s => { s.note .accepted with pending := some value }
  if fields.acknowledgedLines = d.total ∨ 100 ≤ fields.acknowledgedLines - checkpointAck ∨
      2 ≤ monotonic - checkpointAt then do
    appendProgress call.append value
    write fun s => { s with
      checkpoint := (fields.acknowledgedLines, monotonic)
      progress := some value }
    inspect fun _ => call.publish
  else pure ()

/-- The callback that the session is given. -/
def progressCallback (call : ProgressCall) : Durable StreamProgressState Raised Unit := do
  let active ← inspect fun s => .ok s.active
  if active then d.recordProgress call
  else raise (chainFail "STREAM_PROGRESS_LIFETIME_EXPIRED" "STREAM progress callback lifetime expired")

/-- The session calls the callback, and goes on as it likes when that raises. -/
def callbacks : List ProgressCall → Durable StreamProgressState Raised Unit
  | [] => pure ()
  | call :: calls => do
      handle (d.progressCallback call) fun _ => pure ()
      callbacks calls

end StreamDrive

/-! ### The failure of a stream -/

section

variable (p : Platform)

/-- What is known about the failure of a stream. -/
def exceptionFailureEvidence (exception : Option Raised) : MachineFailureEvidenceV1.Fields :=
  let uncertain : MachineFailureEvidenceV1.Fields := ⟨1, "STREAM_OR_HOME_Z_UNCERTAIN",
    "STREAM or HOME_Z failed with sanitized ambiguous evidence", none, true⟩
  match exception with
  | some (.error e) =>
      if e.code = "MACHINE_COORDINATOR_FATAL_PERSISTENCE" then uncertain
      else ⟨1, e.code, e.message, none, true⟩
  | _ => uncertain

/-- The evidence of a failure that an outcome has. -/
def typedFailureEvidence (failure : FluidNCFailure p.ucd) (snapshot : Option PreflightSnapshot) :
    MachineFailureEvidenceV1.Fields :=
  ⟨1, failure.val.code, failure.val.message, snapshot.map fun s => s.status.stateText,
    failure.val.sideEffectMayHaveOccurred⟩

/-- The evidence of a failure: by the outcome if that has one, and else by the exception. -/
def streamFailureEvidence (outcome : Option (StreamOutcome p)) (homeZ : Option (HomeZOutcome p))
    (exception : Option Raised) : MachineFailureEvidenceV1.Fields :=
  match outcome, homeZ with
  | some o, _ =>
      match o.val.failure with
      | some failure => typedFailureEvidence p failure o.val.finalSnapshot
      | none => exceptionFailureEvidence exception
  | none, some h =>
      match h.val.failure with
      | some failure => typedFailureEvidence p failure h.val.snapshot
      | none => exceptionFailureEvidence exception
  | none, none => exceptionFailureEvidence exception

/-- What the clock, the repository and the publisher answer while a failure is recorded. The
last answer is that of the transaction which retires the execution. -/
structure RecoveryAnswers where
  now : Except Raised Timestamp
  append : Except Raised Unit
  publish : Except Raised Unit
  commit : Except Raised MachineExecution

namespace StreamDrive

variable (d : StreamDrive)

/-- The number of acknowledged commands that a failure is recorded with. -/
def failureAcknowledged (outcome : Option (StreamOutcome p))
    (pending existing : Option MachineProgress) : Nat :=
  match outcome with
  | some o => o.val.acknowledgedCommands
  | none =>
      match pending with
      | some value => value.val.acknowledgedLines
      | none => acknowledgedOf existing

/-- The line that a failure is recorded with: the one that was reported when the callback
itself has failed, and else the one that comes next. -/
def failureLine (code : String) (acknowledged : Nat) (pending : Option MachineProgress) :
    Except Raised (Nat × String) :=
  let reported := pending.filter fun value => value.val.acknowledgedLines = acknowledged ∧
    code ∈ ["FAKE_FLUIDNC_PROGRESS_CALLBACK_FAILED", "PROGRESS_CALLBACK_FAILED"]
  match reported with
  | some value =>
      match value.val.lastSourceLine, value.val.lastCommand with
      | some line, some command => .ok (line, command)
      | _, _ => .error .other
  | none =>
      match d.program.commands[min acknowledged (d.total - 1)]? with
      | some command => .ok (command.sourceLine, String.ofList command.command)
      | none => .error .other

/-- The progress of a failure. -/
def failureFields (execution : MachineExecution) (failure : MachineFailureEvidenceV1)
    (acknowledged : Nat) (line : Nat × String) (occurredAt : Timestamp) : MachineProgress.Fields where
  schemaVersion := 1
  executionId := execution.val.executionId
  executionRevision := execution.val.revision
  totalLines := d.total
  acknowledgedLines := acknowledged
  okCount := acknowledged
  errorCount := 1
  percent := progressPercent acknowledged d.total
  lastSourceLine := some line.1
  lastCommand := some line.2
  lastEventAt := occurredAt
  failure := some failure

/-- Make the progress of a failure durable. -/
def persistStreamFailureProgress (execution : MachineExecution)
    (failure : MachineFailureEvidenceV1) (outcome : Option (StreamOutcome p))
    (occurredAt : Timestamp) (answers : RecoveryAnswers) :
    Durable StreamProgressState Raised Unit := do
  let (existing, pending) ← inspect fun s => .ok (s.progress, s.pending)
  let acknowledged := failureAcknowledged p outcome pending existing
  inspect fun _ => rejectIf (d.total < acknowledged)
    (progressInvalid "failed STREAM acknowledged prefix is outside the immutable program")
  let line ← inspect fun _ => d.failureLine failure.val.code acknowledged pending
  let value ← buildProgress (d.failureFields execution failure acknowledged line occurredAt)
  if existing = some value then pure ()
  else do
    appendProgress answers.append value
    write fun s => { s with progress := some value }
    inspect fun _ => answers.publish
    write fun s => { s with pending := none }

/-- Make the progress of a failure durable, as long as the stream is not confirmed. -/
def persistUnlessConfirmed (execution : MachineExecution) (failure : MachineFailureEvidenceV1)
    (outcome : Option (StreamOutcome p)) (confirmed : Bool) (occurredAt : Timestamp)
    (answers : RecoveryAnswers) : Durable StreamProgressState Raised Unit :=
  if confirmed = false ∧ execution.val.phase = .streaming ∧
      execution.val.streamMilestone = .firstWritePossible then
    d.persistStreamFailureProgress p execution failure outcome occurredAt answers
  else pure ()

/-- Record that a stream, or the homing after it, needs recovery. -/
def commitStreamRecovery (execution : MachineExecution) (outcome : Option (StreamOutcome p))
    (homeZ : Option (HomeZOutcome p)) (exception : Option Raised) (confirmed : Bool)
    (answers : RecoveryAnswers) : Durable StreamProgressState Raised MachineExecution := do
  let now ← inspect fun _ => answers.now
  let failure ← inspect fun _ => raising (acceptIf MachineFailureEvidenceV1.Fields.postInit
    (streamFailureEvidence p outcome homeZ exception))
  d.persistUnlessConfirmed p execution failure outcome confirmed now answers
  inspect fun _ => answers.commit

/-- Record that recovery is needed. When this fails, everything about the execution is
forgotten, and the coordinator stops. -/
def commitStreamRecoveryOrFatal (execution : MachineExecution)
    (outcome : Option (StreamOutcome p)) (homeZ : Option (HomeZOutcome p))
    (exception : Option Raised) (confirmed : Bool) (answers : RecoveryAnswers) :
    Durable StreamProgressState Raised MachineExecution :=
  handle (d.commitStreamRecovery p execution outcome homeZ exception confirmed answers)
    fun _ => do
      write fun s => { s with progress := none, pending := none }
      raise .cleanedCoordinatorFatal

end StreamDrive

/-! ### The run of a stream -/

/-- How a session ends: it returns a value, which may be no outcome, or raises an exception, or
is interrupted by one that nothing handles. -/
inductive StreamEnding where
  | returned (value : Option (StreamOutcome.Fields p))
  | raised (e : Raised)
  | interrupted

/-- What a session does: the calls of the callback, the end, and calls after the end. -/
structure StreamBehaviour where
  calls : List ProgressCall
  ending : StreamEnding p
  late : List ProgressCall

/-- A snapshot that is the reading of its own lines. -/
def isCanonicalPreflight (snapshot : PreflightSnapshot) : Bool :=
  parsePreflightSnapshot p snapshot.status.statusLine snapshot.parserState snapshot.offsetLines
    snapshot.errors snapshot.missingOkCommands = .ok snapshot

/-- What the clock, the repository and the publisher answer after the session has ended:
while a failure of its outcome is recorded; when the final snapshot is read and the session is
closed; when the confirmed stream is committed, and while the failure of that is recorded; and
in the handler of an exception. -/
structure DriveAnswers where
  typed : RecoveryAnswers
  completion : Except Raised Unit
  confirm : Except Raised MachineExecution
  uncertain : RecoveryAnswers
  latest : Except Raised (Option MachineExecution)
  handled : RecoveryAnswers

/-- The error of a value that is no outcome of the stream. -/
def outcomeInvalid : Raised :=
  chainFail "STREAM_OUTCOME_INVALID" "STREAM returned an invalid closed typed outcome"

/-- The outcome that a session returns. Its snapshot must be the reading of its own lines, and
it must be of the given session and the given number of commands. -/
def validatedStreamOutcome (value : Option (StreamOutcome.Fields p)) (epoch : String)
    (total : Nat) : Except Raised (StreamOutcome p) :=
  match value with
  | none => .error outcomeInvalid
  | some fields => do
      rejectIf (fields.finalSnapshot.any (fun s => !isCanonicalPreflight p s) = true) outcomeInvalid
      let outcome ← (acceptIf (StreamOutcome.Fields.postInit p) fields).mapError
        fun _ => outcomeInvalid
      rejectIf (outcome.val.machineSessionEpoch ≠ epoch ∨ outcome.val.totalCommands ≠ total)
        outcomeInvalid
      return outcome

/-- The error of an outcome that disagrees with the reports. -/
def outcomeMismatch : Raised :=
  chainFail "STREAM_PROGRESS_OUTCOME_MISMATCH"
    "STREAM outcome does not match the exact acknowledged progress prefix"

namespace StreamDrive

variable (d : StreamDrive)

/-- The error of a confirmed stream that was not committed. -/
def confirmationUncertain : Raised :=
  if d.postRunHomeZ then
    chainFail "STREAM_CONFIRMATION_COMMIT_UNCERTAIN"
      "confirmed STREAM successor phase could not be committed"
  else
    chainFail "STREAM_COMPLETION_COMMIT_UNCERTAIN"
      "confirmed post-stream completion could not be committed"

/-- The confirmation of a stream. -/
def confirmStream (answers : DriveAnswers) :
    Durable StreamProgressState Raised MachineExecution := do
  inspect fun _ => answers.completion
  handle (inspect fun _ => answers.confirm) fun _ =>
    d.commitStreamRecoveryOrFatal p d.current none none (some d.confirmationUncertain) true
      answers.uncertain

/-- What is done with the outcome of the session. -/
def concludeStream (outcome : StreamOutcome p) (answers : DriveAnswers) :
    Durable StreamProgressState Raised MachineExecution := do
  let observedAck ← inspect fun s => .ok (acknowledgedOf s.pending)
  inspect fun _ => rejectIf (outcome.val.acknowledgedCommands ≠ observedAck) outcomeMismatch
  match outcome.val.failure with
  | some _ =>
      d.commitStreamRecoveryOrFatal p d.current (some outcome) none none false answers.typed
  | none => d.confirmStream p answers

/-- The handler of an exception, with the outcome when it was accepted before. -/
def handleException (outcome : Option (StreamOutcome p)) (e : Raised) (answers : DriveAnswers) :
    Durable StreamProgressState Raised MachineExecution :=
  if e = .cleanedCoordinatorFatal then raise e
  else do
    match ← inspect fun _ => answers.latest with
    | none => raise e
    | some latest =>
        if latest.val.phase = .recoveryRequired then pure latest
        else if latest.val.phase ∈ [MachinePhase.completed, .awaitingHomeZApproval] then raise e
        else
          d.commitStreamRecoveryOrFatal p latest outcome none (some e)
            (outcome.any fun o => o.val.failure.isNone) answers.handled

/-- The session streams the program. At its end the callback expires. -/
def streamProgram (behaviour : StreamBehaviour p) : Durable StreamProgressState Raised Unit := do
  d.callbacks behaviour.calls
  write fun s => { s with active := false }
  d.callbacks behaviour.late

/-- What follows when the session has ended. -/
def afterStream (ending : StreamEnding p) (answers : DriveAnswers) :
    Durable StreamProgressState Raised MachineExecution :=
  match ending with
  | .interrupted => raise .other
  | .raised e => d.handleException p none e answers
  | .returned value =>
      match validatedStreamOutcome p value d.current.val.machineSessionEpoch d.total with
      | .error e => d.handleException p none e answers
      | .ok outcome =>
          handle (d.concludeStream p outcome answers) fun e =>
            d.handleException p (some outcome) e answers

/-- The stream of a program, from the call of the session on. -/
def driveStream (behaviour : StreamBehaviour p) (answers : DriveAnswers) :
    Durable StreamProgressState Raised MachineExecution := do
  d.streamProgram p behaviour
  let result ← d.afterStream p behaviour.ending answers
  write fun s => { s with pending := none }
  return result

end StreamDrive

end

end DrawingMachine
