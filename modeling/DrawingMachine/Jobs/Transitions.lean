import DrawingMachine.Jobs.Models

/-!
# Transitions of a job

Which changes of its state the domain allows a job, and the request for such a change. A
job that is ready to run can only be cancelled, and nothing but the outcome of a machine
execution makes a job need recovery.
-/

namespace DrawingMachine

/-! ### Allowed changes of the state -/

/-- The steps of a drawing, up to the program that is ready to run. -/
def offlineProgression : List (JobState × JobState) :=
  [ (.queued, .preparingImage), (.preparingImage, .imageReady), (.imageReady, .planningPaths),
    (.planningPaths, .pathPlanReady), (.pathPlanReady, .buildingGcode),
    (.buildingGcode, .validatingGcode), (.validatingGcode, .readyToRun) ]

/-- The steps of the check of a program. -/
def gcodeCheckProgression : List (JobState × JobState) :=
  [ (.queued, .validatingGcode), (.queued, .failed), (.validatingGcode, .completed),
    (.validatingGcode, .blocked), (.validatingGcode, .failed), (.validatingGcode, .cancelled) ]

/-- The states in which a drawing stops when something is wrong. -/
def failClosedResults : List JobState := [.blocked, .failed, .cancelled]

/-- The states in which a drawing waits for nothing of its own. -/
def terminalStates : List JobState :=
  [.readyToRun, .blocked, .failed, .cancelled, .recoveryRequired, .completed]

/-- Whether a job of the given kind, blocked for a reason with the given code or not
blocked, may change its state. -/
def allowedTransition (prior result : JobState) (blockerCode : Option String) (kind : JobKind) :
    Bool :=
  if jobStates kind prior = false ∨ jobStates kind result = false then false
  else if result = .cancelled then
    prior ∉ [JobState.failed, .cancelled, .recoveryRequired, .completed]
  else if kind = .gcodeCheck then (prior, result) ∈ gcodeCheckProgression
  else if prior = .blocked then
    blockerCode = some "REVIEW_REQUIRED" ∧ result ∈ [JobState.imageReady, .failed]
  else if prior ∈ terminalStates then false
  else if result ∈ failClosedResults then true
  else (prior, result) ∈ offlineProgression

variable {prior result : JobState} {code : Option String} {kind : JobKind}

/-- A job that is ready to run can only be cancelled. -/
theorem allowedTransition_readyToRun (h : allowedTransition .readyToRun result code kind = true) :
  kind = .offlineWorkflow ∧ result = .cancelled
  := by
  revert h
  cases kind <;> cases result <;>
    simp [allowedTransition, jobStates, terminalStates]

/-- A job that needs recovery is left to the machine. -/
theorem allowedTransition_recoveryRequired :
  allowedTransition .recoveryRequired result code kind = false
  := by
  cases kind <;> cases result <;> simp [allowedTransition, jobStates, terminalStates]

/-- A job does not leave its end. -/
theorem allowedTransition_ended (h : prior ∈ [JobState.cancelled, .completed, .failed]) :
  allowedTransition prior result code kind = false
  := by
  simp only [List.mem_cons, List.not_mem_nil, or_false] at h
  rcases h with rfl | rfl | rfl <;> cases kind <;> cases result <;>
    simp [allowedTransition, jobStates, terminalStates, gcodeCheckProgression]

/-- Only the check of a program completes without the machine. -/
theorem allowedTransition_completed (h : allowedTransition prior .completed code kind = true) :
  kind = .gcodeCheck
  := by
  revert h
  cases kind <;> cases prior <;>
    simp [allowedTransition, jobStates, terminalStates, failClosedResults, offlineProgression]

/-! ### The request for a change -/

/-- A change of the state of a job. -/
structure JobTransition.Fields where
  jobId : String
  expectedRevision : Nat
  resultState : JobState
  requestId : Option String
  eventType : String
  blocker : Option JobBlocker
  error : Option JobError
  readySnapshot : Option ReadyToRunSnapshot
  deriving DecidableEq, Repr

/-- The checks of a change of the state of a job. -/
def JobTransition.Fields.postInit (t : JobTransition.Fields) : Except ErrorPayload Unit := do
  validateString t.jobId "transition.job_id"
  rejectIf (t.resultState = .recoveryRequired)
    (jobInvalid "JobTransition cannot produce RECOVERY_REQUIRED")
  validateNullableString t.requestId "transition.request_id"
  validateString t.eventType "transition.event_type"
  validatedStatePayloads "transition" false false t.resultState t.blocker t.error t.readySnapshot
  checkSome t.error fun e => do
    rejectIf (e.jobId ≠ some t.jobId)
      (jobInvalid "transition.error.job_id must explicitly match transition.job_id")
    rejectIf (t.requestId = none ∨ e.requestId ≠ t.requestId)
      (jobInvalid "transition.error.request_id must explicitly match transition.request_id")
  checkSome t.readySnapshot fun s => do
    rejectIf (s.val.jobId ≠ t.jobId) (jobInvalid "transition ready snapshot must match job ID")
    rejectIf (s.val.jobRevision ≠ t.expectedRevision + 1)
      (jobInvalid "transition ready snapshot job_revision must equal expected_revision + 1")

/-- A change of the state of a job. -/
abbrev JobTransition := { t : JobTransition.Fields // t.postInit = .ok () }

end DrawingMachine
