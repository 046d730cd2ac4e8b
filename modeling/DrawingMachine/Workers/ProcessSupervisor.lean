import DrawingMachine.Base.Ending
import DrawingMachine.Base.Text
import DrawingMachine.Documents.Workers
import Mathlib.Data.NNRat.Defs

/-!
# The supervisor of worker processes

A worker runs in a process of its own and sends one message, its outcome, through a pipe. The
supervisor reads the message in a thread, and ends the process when it takes too long or is
cancelled. Each step of the supervisor may find that time has passed, that the process has
exited and that the reader has gone on, in any order: a world has a schedule of such moves, and
every step uses up the next one. A process that has been killed exits while it is joined, and the
reader of a process that has exited comes to its end while it is joined.

Parsing JSON is a parameter: `JsonModule` is the interpreter's `json` module.
-/

namespace DrawingMachine.Document.Workers

open PyValue

namespace Supervisor

/-- The size of the longest message that is read. -/
def maxOutcomeBytes : ℕ := 1048576

/-- How long the supervisor waits at a time, in seconds. -/
def pollInterval : ℚ := 1 / 20

/-- How long it waits for a process that it has told to end, in seconds. -/
def forcedJoin : ℚ := 1

/-- How long a cancelled worker has to end on its own, unless it is said otherwise. -/
def defaultGrace : ℚ := 2

/-! ### Strict JSON -/

/-- What parsing a text comes to. -/
inductive Loaded (φ : Type) where
  | value (value : PyValue φ)
  | valueError
  | recursionError

/-- The parser of JSON, with hooks that make the constants that JSON does not have, and the
objects from their pairs. A hook without a result raises a `ValueError`. -/
structure JsonModule (φ : Type) where
  loads : (parseConstant : String → Option (PyValue φ)) →
    (objectPairsHook : List (PyStr × PyValue φ) → Option (PyValue φ)) → Text → Loaded φ

variable {φ : Type}

/-- No other constants. -/
def rejectJsonConstant (_value : String) : Option (PyValue φ) := none

/-- An object that has no key twice. -/
def strictObjectPairs (pairs : List (PyStr × PyValue φ)) : Option (PyValue φ) := do
  let result ← pairs.foldlM
    (fun result pair => if pair.1 ∈ result.map Prod.fst then none else some (result ++ [pair])) []
  return .obj result

/-- Parse the bytes of a message. A `UnicodeDecodeError` is a `ValueError`. -/
def strictLoads (json : JsonModule φ) (payload : List UInt8) : Loaded φ :=
  match Text.decode? payload with
  | none => .valueError
  | some text => json.loads rejectJsonConstant strictObjectPairs text

/-! ### Limits of resources -/

/-- How large the artifacts of an outcome may be, one of them and all together. -/
structure WorkerResourcePolicy where
  maxOutputFileBytes : ℕ
  maxOutputBundleBytes : ℕ

/-- The bytes of a mebibyte. -/
def mib : ℕ := 1024 * 1024

/-- The limits of a kind of worker. -/
def policyFor : WorkerKind → WorkerResourcePolicy
  | .imagePrepare => ⟨32 * mib, 64 * mib⟩
  | .providerLocalComfyui => ⟨32 * mib, 64 * mib⟩
  | .pathsPlan => ⟨16 * mib, 32 * mib⟩
  | .gcodeBuild => ⟨16 * mib, 32 * mib⟩
  | .gcodeCheck => ⟨4 * mib, 8 * mib⟩
  | .testEcho => ⟨32 * mib, 32 * mib⟩
  | .testHang => ⟨32 * mib, 32 * mib⟩

/-- The check of the artifacts after those that have a total already. -/
def validateArtifacts (selected : WorkerResourcePolicy) (total : ℕ) :
    List WorkerArtifact → Except String Unit
  | [] => .ok ()
  | artifact :: artifacts =>
      if selected.maxOutputFileBytes < artifact.sizeBytes then
        .error "worker artifact exceeds its per-file output limit"
      else if selected.maxOutputBundleBytes < total + artifact.sizeBytes then
        .error "worker artifacts exceed their bundle output limit"
      else
        validateArtifacts selected (total + artifact.sizeBytes) artifacts

section

variable [PyFinite φ]

/-- The check of an outcome against the limits of its task. -/
def validateOutcome (task : WorkerTaskV1 φ) (outcome : WorkerOutcomeV1 φ) : Except String Unit :=
  validateArtifacts (policyFor task.kind) 0 outcome.val.artifacts

/-! ### The process, its pipe and the reader -/

/-- How receiving a message fails. -/
inductive ReceiveError where
  | osError (text : String)
  | endOfFile

/-- What the reader finds in the pipe: the whole message, or a failure. -/
inductive Received where
  | message
  | failure (error : ReceiveError)

/-- Receive the message that was written, if it is not too long. -/
def recvBytes (maxlength : ℕ) (written : List UInt8) : Received → Except ReceiveError (List UInt8)
  | .message => if maxlength < written.length then .error (.osError "bad message length")
      else .ok written
  | .failure error => .error error

/-- What happens around the supervisor before one of its steps, and what the step finds. -/
structure Move where
  elapsed : ℚ≥0
  exits : Bool
  exitcode : ℤ
  received : Option Received
  readerEnds : Bool
  readable : Bool
  /-- What the callback says, unless it raises an exception. -/
  cancelRequested : Option Bool

/-- The thread of the reader. -/
inductive ReaderThread where
  | notStarted | running | ended
  deriving DecidableEq

/-- The record of a worker, its process and its pipe, and what is going to happen. -/
structure World (φ : Type) [PyFinite φ] where
  moves : ℕ → Move
  clock : ℚ
  /-- The exit code of the process, as soon as it has exited. -/
  exitcode : Option ℤ
  killed : Bool
  /-- The message of the worker. -/
  written : List UInt8
  task : WorkerTaskV1 φ
  joined : Bool
  receiverOpen : Bool
  cancelEvent : Bool
  readerThread : ReaderThread
  readComplete : Bool
  readPayload : Option (List UInt8)
  readError : Option String
  outcome : Option (WorkerOutcomeV1 φ)

/-- The reader stores what it has received. -/
def World.readOutcome (w : World φ) (received : Received) : World φ :=
  match recvBytes maxOutcomeBytes w.written received with
  | .ok payload => { w with readPayload := some payload, readComplete := true }
  | .error (.osError text) =>
      { w with
        readError := some (if text = "bad message length" then "WORKER_OUTCOME_TOO_LARGE"
          else "WORKER_PROCESS_CRASHED")
        readComplete := true }
  | .error .endOfFile =>
      { w with readError := some "WORKER_PROCESS_CRASHED", readComplete := true }

/-- The reader goes on. -/
def World.runReader (w : World φ) (move : Move) : World φ :=
  if w.readerThread = .running then
    if w.readComplete then
      if move.readerEnds then { w with readerThread := .ended } else w
    else
      match move.received with
      | some received => w.readOutcome received
      | none => w
  else w

/-- The next move is made. -/
def World.advance (w : World φ) : World φ :=
  let move := w.moves 0
  { w.runReader move with
    moves := fun i => w.moves (i + 1)
    clock := w.clock + move.elapsed
    exitcode := w.exitcode <|> if move.exits then some move.exitcode else none }

/-- Time passes. -/
def World.sleep (w : World φ) (seconds : ℚ) : World φ :=
  { w with clock := w.clock + max seconds 0 }

/-- The reader comes to the end of the pipe, unless it has come to its end before. -/
def World.finishReader (w : World φ) : World φ :=
  { (if w.readComplete then w else w.readOutcome (.failure .endOfFile)) with
    readerThread := .ended }

/-- The exceptions that nothing handles. -/
inductive Raised where
  | callback
  | recursionError
  | valueError (message : String)
  | osError (message : String)
  | runtimeError (message : String)
  | service (code message : String)
  | contract (error : ContractError)

/-- A program of the supervisor. -/
abbrev Supervised (φ : Type) [PyFinite φ] (α : Type) := Interaction (World φ) Raised α

/-! ### What the supervisor does with the process -/

variable {α : Type}

/-- One step, after the next move. -/
def step (f : Move → World φ → α × World φ) : Supervised φ α :=
  Interaction.perform fun w => f (w.moves 0) w.advance

/-- The record. -/
def record : Supervised φ (World φ) := Interaction.perform fun w => (w, w)

/-- Change the record. -/
def modify (f : World φ → World φ) : Supervised φ Unit := Interaction.perform fun w => ((), f w)

/-- Raise an exception. -/
def throw (e : Raised) : Supervised φ α := Interaction.escape e

/-- The time. -/
def monotonic : Supervised φ ℚ := step fun _ w => (w.clock, w)

/-- Whether the process has not exited. -/
def isAlive : Supervised φ Bool := step fun _ w => (w.exitcode.isNone, w)

/-- The exit code of the process. -/
def exitcode : Supervised φ (Option ℤ) := step fun _ w => (w.exitcode, w)

/-- Whether the pipe can be read within some time. -/
def poll (timeout : ℚ) : Supervised φ Bool := do
  if (← record).receiverOpen then
    step fun move w => if move.readable then (true, w) else (false, w.sleep timeout)
  else
    throw (.osError "handle is closed")

/-- Wait some time for the reader to complete. -/
def waitReadComplete (timeout : ℚ) : Supervised φ Bool :=
  step fun _ w => if w.readComplete then (true, w) else (false, w.sleep timeout)

/-- Wait for the process to exit, for some time or for as long as it takes. -/
def join (timeout : Option ℚ) : Supervised φ Unit :=
  step fun move w =>
    if w.exitcode.isSome then ((), w)
    else if w.killed ∨ timeout = none then ((), { w with exitcode := some move.exitcode })
    else ((), w.sleep (timeout.getD 0))

/-- Ask the process to end. -/
def terminate : Supervised φ Unit := step fun _ w => ((), w)

/-- Kill the process. -/
def kill : Supervised φ Unit := step fun _ w => ((), { w with killed := true })

/-- Whether the reader is running. -/
def readerIsAlive : Supervised φ Bool := step fun _ w => (decide (w.readerThread = .running), w)

/-- Wait some time for the reader to end. -/
def joinReader (timeout : ℚ) : Supervised φ Unit :=
  step fun _ w =>
    if w.readerThread ≠ .running then ((), w)
    else if w.exitcode.isSome then ((), w.finishReader)
    else ((), w.sleep timeout)

/-- What the callback of the caller says, unless it raises an exception. -/
def cancelRequested : Supervised φ (Option Bool) := step fun move w => (move.cancelRequested, w)

/-- Close the receiving end of the pipe. -/
def closeReceiver : Supervised φ Unit := modify fun w => { w with receiverOpen := false }

/-! ### Reading and reaping -/

/-- What the reader has read so far: a message, or an error. -/
abbrev Pending := Option (List UInt8) × Option String

/-- Start the reader, unless it has been started or there is nothing to read within some time. -/
def startReader (timeout : ℚ) : Supervised φ Bool := do
  if (← record).readerThread = .notStarted then
    if ← poll timeout then
      modify fun w => { w with readerThread := .running }
      return true
    else
      return false
  else
    return true

/-- What the reader has read when some time has passed. -/
def receivePending (timeout : ℚ) : Supervised φ Pending := do
  let deadline := (← monotonic) + timeout
  if ← startReader timeout then
    let remaining := max 0 (deadline - (← monotonic))
    if ← waitReadComplete remaining then
      let w ← record
      return (w.readPayload, w.readError)
    else
      return (none, none)
  else
    return (none, none)

/-- Start a reader for a message that has not been looked at. -/
def startLateReader : Supervised φ Unit := do
  if (← record).readerThread = .notStarted then
    if ← poll 0 then
      let _ ← receivePending 0
      return ()
    else
      return ()
  else
    return ()

/-- Close the receiving end under a reader that is still running. -/
def closeUnderReader : Supervised φ Unit := do
  if ← readerIsAlive then
    closeReceiver
    joinReader forcedJoin
  else
    return ()

/-- The reader has to have ended. -/
def requireReaderEnded : Supervised φ Unit := do
  if ← readerIsAlive then
    throw (.service "WORKER_READER_REAP_FAILED" "worker outcome reader could not be reaped")
  else
    return ()

/-- Wait for the reader to end. -/
def joinOutcomeReader : Supervised φ Unit := do
  startLateReader
  if (← record).readerThread = .notStarted then
    return ()
  else
    joinReader forcedJoin
    closeUnderReader
    requireReaderEnded

/-- Note that the process has been joined, and its reader with it. -/
def markJoined : Supervised φ Unit := do
  if ← isAlive then
    throw (.runtimeError "cannot mark a live worker process as joined")
  else
    join none
    joinOutcomeReader
    closeReceiver
    modify fun w => { w with joined := true }

/-- Do something to a process that has not exited, and wait for it. -/
def endAlive (signal : Supervised φ Unit) : Supervised φ Unit := do
  if ← isAlive then
    signal
    join (some forcedJoin)
  else
    return ()

/-- End the process, and the reader with it. -/
def terminateAndReap : Supervised φ Unit := do
  endAlive terminate
  endAlive kill
  if ← isAlive then
    throw (.service "WORKER_REAP_FAILED" "worker process could not be reaped")
  else
    markJoined

/-- Whether the process exits before a deadline; it is ended when it does not. -/
def joinBeforeDeadline (deadline : ℚ) : Supervised φ Bool := do
  let remaining := max 0 (deadline - (← monotonic))
  join (some remaining)
  if ← isAlive then
    terminateAndReap
    return false
  else
    markJoined
    return true

/-- The process and the reader have to have ended. -/
def assertReaped : Supervised φ Unit := do
  let error := Raised.runtimeError
    "worker outcome cannot be returned before the producer and outcome reader are reaped"
  if ¬ (← record).joined then
    throw error
  else if ← isAlive then
    throw error
  else if ← readerIsAlive then
    throw error
  else
    return ()

/-! ### Outcomes -/

/-- The outcome of a task that has failed. -/
def failure (task : WorkerTaskV1 φ) (code message : String) (status : WorkerStatus) :
    WorkerOutcomeV1.Fields φ where
  schemaVersion := 1
  taskId := task.taskId
  jobId := task.jobId
  jobRevision := task.jobRevision
  attemptId := task.attemptId
  status := status
  artifacts := []
  metrics := .obj []
  error := some {
    code := code
    category := .internal
    message := message
    retryable := false
    details := .obj []
    requestId := none
    jobId := some task.jobId }

/-- Keep an outcome and return it. -/
def finish (outcome : WorkerOutcomeV1 φ) : Supervised φ (WorkerOutcomeV1 φ) := do
  modify fun w => { w with outcome := some outcome }
  return outcome

/-- Return that the worker has failed. -/
def finishFailure (code message : String) (status : WorkerStatus := .failed) :
    Supervised φ (WorkerOutcomeV1 φ) := do
  assertReaped
  match acceptIf WorkerOutcomeV1.Fields.postInit
    (failure (← record).task code message status) with
  | .ok outcome => finish outcome
  | .error error => throw (.contract error)

/-- The identity of an outcome is the one of the task. -/
def SameIdentity (task : WorkerTaskV1 φ) (outcome : WorkerOutcomeV1 φ) : Prop :=
  outcome.val.taskId = task.taskId ∧ outcome.val.jobId = task.jobId ∧
    outcome.val.jobRevision = task.jobRevision ∧ outcome.val.attemptId = task.attemptId

instance (task : WorkerTaskV1 φ) (outcome : WorkerOutcomeV1 φ) :
    Decidable (SameIdentity task outcome) :=
  inferInstanceAs (Decidable (_ ∧ _))

variable (json : JsonModule φ)

/-- Return the outcome in a message. -/
def decodeOutcome (payload : List UInt8) : Supervised φ (WorkerOutcomeV1 φ) := do
  assertReaped
  match strictLoads json payload with
  | .recursionError => throw .recursionError
  | .valueError => finishFailure "WORKER_OUTCOME_INVALID" "worker returned an invalid outcome"
  | .value decoded =>
      match WorkerOutcomeV1.fromJson decoded with
      | .error _ => finishFailure "WORKER_OUTCOME_INVALID" "worker returned an invalid outcome"
      | .ok outcome =>
          let task := (← record).task
          if ¬ SameIdentity task outcome then
            finishFailure "WORKER_IDENTITY_MISMATCH"
              "worker outcome identity did not match its task"
          else
            match validateOutcome task outcome with
            | .error _ =>
                finishFailure "WORKER_OUTPUT_LIMIT_EXCEEDED"
                  "worker outcome exceeded its artifact resource limit"
            | .ok () => finish outcome

/-- Return what a process that has exited and been joined has left behind. -/
def outcomeOfExited (exitcode : Option ℤ) (message : String) :
    Supervised φ (WorkerOutcomeV1 φ) := do
  let w ← record
  if exitcode ≠ some 0 then
    finishFailure "WORKER_PROCESS_CRASHED" "worker exited abnormally after producing an outcome"
  else
    match w.readPayload with
    | some payload => decodeOutcome json payload
    | none =>
        if w.readError = some "WORKER_OUTCOME_TOO_LARGE" then
          finishFailure "WORKER_OUTCOME_TOO_LARGE" "worker outcome exceeded the maximum size"
        else
          finishFailure "WORKER_PROCESS_CRASHED" message

/-! ### Cancelling -/

/-- A time in seconds, unless it is not finite. -/
abbrev Seconds := Option ℚ

/-- Give a cancelled worker time to end: a round of the loop, which goes on with what has been
read. -/
def cancelRound (deadline : ℚ) (pending : Pending) : Supervised φ (Pending ⊕ Pending) := do
  if ← isAlive then
    let remaining := deadline - (← monotonic)
    if remaining ≤ 0 then
      return .inr pending
    else if pending = (none, none) then
      return .inl (← receivePending (min pollInterval remaining))
    else
      join (some (min pollInterval remaining))
      return .inl pending
  else
    return .inr pending

/-- Read what a cancelled worker has written, unless it has been read. -/
def receiveLate (pending : Pending) : Supervised φ Unit := do
  if pending = (none, none) then
    let _ ← receivePending 0
    return ()
  else
    return ()

/-- Return what has become of a cancelled worker. -/
def cancelled (pending : Pending) : Supervised φ (WorkerOutcomeV1 φ) := do
  if ← isAlive then
    terminateAndReap
    finishFailure "WORKER_CANCELLED" "worker was cancelled" .cancelled
  else
    join none
    receiveLate pending
    markJoined
    outcomeOfExited json (← exitcode) "worker exited without a complete outcome"

/-- Cancel a worker, and return its outcome. The loop is given a number of rounds. -/
def cancel (rounds : ℕ) (graceSeconds : Seconds) : Supervised φ (WorkerOutcomeV1 φ) := do
  match (← record).outcome, graceSeconds with
  | some outcome, _ => return outcome
  | none, none =>
      throw (.valueError "grace_seconds must be finite and between zero and at most two seconds")
  | none, some grace =>
      if grace < 0 ∨ 2 < grace then
        throw (.valueError "grace_seconds must be finite and between zero and at most two seconds")
      else
        modify fun w => { w with cancelEvent := true }
        let deadline := (← monotonic) + grace
        cancelled json (← Interaction.iterate (cancelRound deadline) rounds (none, none))

/-! ### Waiting -/

/-- Return what has become of a worker whose pipe has failed. -/
def waitFailed (deadline : ℚ) (error : String) : Supervised φ (WorkerOutcomeV1 φ) := do
  if ← joinBeforeDeadline deadline then
    if error = "WORKER_OUTCOME_TOO_LARGE" then
      finishFailure "WORKER_OUTCOME_TOO_LARGE" "worker outcome exceeded the maximum size"
    else
      finishFailure "WORKER_PROCESS_CRASHED" "worker exited without a complete outcome"
  else
    finishFailure "WORKER_DID_NOT_EXIT" "worker closed its outcome pipe but did not exit"

/-- Return what has become of a worker that has sent a message. -/
def waitRead (deadline : ℚ) (payload : List UInt8) : Supervised φ (WorkerOutcomeV1 φ) := do
  if ← joinBeforeDeadline deadline then
    if (← exitcode) ≠ some 0 then
      finishFailure "WORKER_PROCESS_CRASHED" "worker exited abnormally after producing an outcome"
    else
      decodeOutcome json payload
  else
    finishFailure "WORKER_DID_NOT_EXIT" "worker produced an outcome but did not exit"

/-- Return what has become of a worker that has exited before anything was read. -/
def waitExited : Supervised φ (WorkerOutcomeV1 φ) := do
  join none
  let _ ← receivePending 0
  let code ← exitcode
  markJoined
  outcomeOfExited json code "worker exited without an outcome"

/-- Return that the callback of the caller has raised an exception, which goes on. -/
def waitRaised : Supervised φ (WorkerOutcomeV1 φ) := do
  terminateAndReap
  let _ ← finishFailure "WORKER_CANCEL_CHECK_FAILED"
    "worker cancellation state could not be checked"
  throw .callback

/-- Return that the worker has taken too long. -/
def waitTimedOut : Supervised φ (WorkerOutcomeV1 φ) := do
  terminateAndReap
  finishFailure "WORKER_TIMEOUT" "worker timed out"

/-- Wait for a worker: a round of the loop. -/
def waitRound (rounds : ℕ) (deadline : ℚ) (_ : Unit) :
    Supervised φ (Unit ⊕ WorkerOutcomeV1 φ) := do
  match ← cancelRequested with
  | none => return .inr (← waitRaised)
  | some true => return .inr (← cancel json rounds (some defaultGrace))
  | some false =>
      let remaining := deadline - (← monotonic)
      if remaining ≤ 0 then
        return .inr (← waitTimedOut)
      else
        match ← receivePending (min pollInterval remaining) with
        | (_, some error) => return .inr (← waitFailed deadline error)
        | (some payload, none) => return .inr (← waitRead json deadline payload)
        | (none, none) =>
            if ← isAlive then
              return .inl ()
            else
              return .inr (← waitExited json)

/-- Wait for a worker, and return its outcome. The loops are given a number of rounds. -/
def wait (rounds : ℕ) (timeoutSeconds : Seconds) : Supervised φ (WorkerOutcomeV1 φ) := do
  match (← record).outcome, timeoutSeconds with
  | some outcome, _ => return outcome
  | none, none => throw (.valueError "timeout_seconds must be finite and greater than zero")
  | none, some timeout =>
      if timeout ≤ 0 then
        throw (.valueError "timeout_seconds must be finite and greater than zero")
      else
        let deadline := (← monotonic) + timeout
        Interaction.iterate (waitRound json rounds deadline) rounds ()

end

end Supervisor

end DrawingMachine.Document.Workers
