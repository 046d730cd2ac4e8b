import DrawingMachine.Jobs.Transitions
import Mathlib.Logic.Function.Basic
import Mathlib.Logic.Relation

/-!
# The coordinator of the jobs

One thread commits and drives the commands of the clients: to draw an image, to check a program,
and to go on after a review. A client puts its command into the mailbox of the coordinator and
waits, until a deadline, for the acknowledgement that the change it asked for is durable. The
executions of the machine change the same jobs, in transactions of their own. A step below is what
a thread does between two points at which another thread can interfere; the stores do not fail.
-/

namespace DrawingMachine

namespace JobCoordinator

/-! ### Jobs and commands -/

/-- What the coordinator reads of a job. -/
structure Job where
  kind : JobKind
  state : JobState
  revision : Nat
  blockerCode : Option String
  deriving DecidableEq, Repr

/-- The commands of the clients. -/
inductive CommandKind where
  | submit | continueReview | gcodeCheck
  deriving DecidableEq, Repr

/-- A command for a job. -/
structure Command where
  kind : CommandKind
  jobId : String
  deriving DecidableEq, Repr

/-- The job that a command asks for, or the error that the chain raises when it finds the job in
its present state. -/
def Command.target (command : Command) (current : Option Job) : Except String Job :=
  match command.kind, current with
  | .submit, none => .ok ⟨.offlineWorkflow, .queued, 0, none⟩
  | .gcodeCheck, none => .ok ⟨.gcodeCheck, .queued, 0, none⟩
  | .submit, some _ => .error "JOB_ALREADY_EXISTS"
  | .gcodeCheck, some _ => .error "JOB_ALREADY_EXISTS"
  | .continueReview, none => .error "JOB_NOT_FOUND"
  | .continueReview, some job =>
      if job.state ≠ .blocked ∨ job.blockerCode ≠ some "REVIEW_REQUIRED" then
        .error "REVIEW_NOT_ALLOWED"
      else if allowedTransition job.state .imageReady job.blockerCode job.kind = false then
        .error "JOB_TRANSITION_NOT_ALLOWED"
      else .ok { job with state := .imageReady, revision := job.revision + 1, blockerCode := none }

/-- The job after the coordinator has tried to fail it. -/
def failUnexpected (job : Job) : Job :=
  if job.state ∈ [JobState.failed, .cancelled, .completed] then job
  else if allowedTransition job.state .failed job.blockerCode job.kind = false then job
  else { job with state := .failed, revision := job.revision + 1, blockerCode := none }

/-- The job has the revision that was read before. -/
def sameAuthoritativeRevision (before after : Option Job) : Bool :=
  before.map Job.revision = after.map Job.revision

/-! ### Envelopes -/

/-- The state of an envelope. -/
inductive EnvelopeState where
  | queued | acknowledged | abandoned
  deriving DecidableEq, Repr

/-- A submitted command: its deadline, and what its submitter is told. -/
structure Envelope where
  command : Command
  deadline : Int
  result : Option Job := none
  error : Option String := none
  state : EnvelopeState := .queued
  deriving DecidableEq, Repr

namespace Envelope

variable (envelope : Envelope)

/-- The change may still be committed; after the deadline the envelope is abandoned. -/
def commitAllowed (now : Int) : Bool × Envelope :=
  if envelope.state ≠ .queued then (false, envelope)
  else if envelope.deadline ≤ now then (false, { envelope with state := .abandoned })
  else (true, envelope)

/-- The submitter gives the envelope up, unless it is acknowledged. -/
def abandonUnacknowledged : Bool × Envelope :=
  if envelope.state = .acknowledged then (false, envelope)
  else (true, { envelope with state := .abandoned })

/-- The envelope is acknowledged, unless it is abandoned or its deadline has passed. -/
def acknowledge (now : Int) : Bool × Envelope :=
  if envelope.state = .abandoned then (false, envelope)
  else if envelope.deadline ≤ now then (false, { envelope with state := .abandoned })
  else (true, { envelope with state := .acknowledged })

end Envelope

/-! ### The threads -/

/-- Where a call of `submit` is. -/
inductive Caller where
  /-- It has not begun. -/
  | outside
  /-- The deadline is computed. -/
  | preparing (command : Command) (deadline : Int)
  /-- The coordinator does not accept commands. -/
  | refused
  /-- It waits for the acknowledgement. -/
  | waiting (envelope : Nat)
  /-- The wait has returned without an acknowledgement. -/
  | expired (envelope : Nat)
  /-- It has raised `COORDINATOR_ACK_TIMEOUT`. -/
  | timedOut (envelope : Nat)
  /-- The envelope is acknowledged. -/
  | answered (envelope : Nat)
  /-- It has raised the error of its envelope. -/
  | raised (envelope : Nat) (error : String)
  /-- The envelope has neither an error nor a result. -/
  | incomplete (envelope : Nat)
  /-- It has returned. -/
  | returned (envelope : Nat) (job : Job)
  deriving DecidableEq, Repr

/-- How far the coordinator is with a command. -/
inductive Stage where
  /-- It was taken out of the mailbox. -/
  | received
  /-- It was not abandoned. -/
  | reading
  /-- The job is read, and the chain is called. -/
  | calling (before : Option Job)
  /-- The chain accepts the command for the job it has read. -/
  | validated (before current : Option Job) (target : Job)
  /-- The change is made in a transaction. -/
  | transacting (before current : Option Job) (target : Job)
  /-- The transaction may be committed. -/
  | permitted (before current : Option Job) (target : Job)
  /-- The change is committed. -/
  | committed (job : Job)
  /-- The acknowledgement was tried, and the chain has returned. -/
  | answered (job : Job)
  /-- The chain has raised an error before the acknowledgement. -/
  | rejected (before : Option Job) (error : String)
  /-- The job has not the revision that was read before. -/
  | mismatched (error : String)
  /-- The job is driven. -/
  | driving
  /-- The job is about to be failed. -/
  | failing
  deriving DecidableEq, Repr

/-- The transaction of the coordinator is open. -/
def Stage.Writing : Stage → Prop
  | .transacting _ _ _ => True
  | .permitted _ _ _ => True
  | _ => False

/-- Where the thread of the coordinator is. -/
inductive Thread where
  /-- It waits for the mailbox. -/
  | waiting
  /-- It processes a command. -/
  | busy (envelope : Nat) (stage : Stage)
  | exited
  deriving DecidableEq, Repr

/-- What lies in the mailbox. -/
inductive Item where
  | envelope (e : Nat)
  | cancelWake (jobId : String)
  | externalPublication (jobId : String)
  | stop
  deriving DecidableEq, Repr

/-- The coordinator, its threads, the jobs, and what has happened. -/
structure State where
  clock : Int
  count : Nat
  envelopes : Nat → Envelope
  callers : Nat → Caller
  thread : Thread
  mailbox : List Item
  stopping : Bool
  jobs : String → Option Job
  /-- The changes that the commands asked for, where they are committed. -/
  commits : List (Nat × Job)
  /-- The envelopes whose jobs were driven. -/
  driven : List Nat

namespace State

variable (s : State)

/-- The job of an envelope. -/
def job (e : Nat) : Option Job := s.jobs (s.envelopes e).command.jobId

/-- Change an envelope. -/
def update (e : Nat) (envelope : Envelope) : State :=
  { s with envelopes := Function.update s.envelopes e envelope }

/-- A call of `submit` goes on. -/
def caller (i : Nat) (c : Caller) : State :=
  { s with callers := Function.update s.callers i c }

/-- The thread of the coordinator goes on. -/
def goto (t : Thread) : State := { s with thread := t }

/-- Write a job. -/
def write (jobId : String) (job : Job) : State :=
  { s with jobs := Function.update s.jobs jobId (some job) }

/-- The coordinator accepts commands. -/
def Accepting : Prop := s.thread ≠ .exited ∧ s.stopping = false

/-- No transaction of the coordinator is open. -/
def Unlocked : Prop := ∀ e stage, s.thread = .busy e stage → ¬ stage.Writing

end State

/-! ### Steps -/

/-- What an acknowledged call does. -/
def answer (e : Nat) (envelope : Envelope) : Caller :=
  match envelope.error, envelope.result with
  | some error, _ => .raised e error
  | none, none => .incomplete e
  | none, some job => .returned e job

/-- The envelope of a command that was rejected before its acknowledgement, when its job is no
longer at the revision that was read before. -/
def Envelope.completed (envelope : Envelope) (job : Option Job) : Envelope :=
  match job with
  | none => { envelope with error := some "ORCHESTRATION_FAILED" }
  | some job => { envelope with result := some (failUnexpected job) }

/-- One step of one of the threads, of the machine, or of the clock. The time until the deadline of
a command is `timeout`. -/
inductive Step (timeout : Int) : State → State → Prop
  | tick {s} (d : Nat) : Step timeout s { s with clock := s.clock + d }
  -- A call of `submit`.
  | call {s} (i : Nat) (command : Command) (h : s.callers i = .outside) :
      Step timeout s (s.caller i (.preparing command (s.clock + timeout)))
  | submit {s} (i : Nat) (command : Command) (deadline : Int)
      (h : s.callers i = .preparing command deadline) (haccepting : s.Accepting) :
      Step timeout s
        { s with
          count := s.count + 1
          envelopes := Function.update s.envelopes s.count ⟨command, deadline, none, none, .queued⟩
          mailbox := s.mailbox ++ [.envelope s.count]
          callers := Function.update s.callers i (.waiting s.count) }
  | refuse {s} (i : Nat) (command : Command) (deadline : Int)
      (h : s.callers i = .preparing command deadline) (haccepting : ¬ s.Accepting) :
      Step timeout s (s.caller i .refused)
  | acknowledged {s} (i e : Nat) (h : s.callers i = .waiting e)
      (hacknowledged : (s.envelopes e).state = .acknowledged) :
      Step timeout s (s.caller i (.answered e))
  | expire {s} (i e : Nat) (h : s.callers i = .waiting e)
      (hdeadline : (s.envelopes e).deadline ≤ s.clock) :
      Step timeout s (s.caller i (.expired e))
  | abandon {s} (i e : Nat) (h : s.callers i = .expired e) :
      Step timeout s
        ((s.update e (s.envelopes e).abandonUnacknowledged.2).caller i
          (if (s.envelopes e).abandonUnacknowledged.1 then .timedOut e else .answered e))
  | answer {s} (i e : Nat) (h : s.callers i = .answered e) :
      Step timeout s (s.caller i (answer e (s.envelopes e)))
  -- The other threads put items into the mailbox, and an execution of the machine ends.
  | requestCancel {s} (jobId : String) (haccepting : s.Accepting) :
      Step timeout s { s with mailbox := s.mailbox ++ [.cancelWake jobId] }
  | publishExternal {s} (jobId : String) (haccepting : s.Accepting) :
      Step timeout s { s with mailbox := s.mailbox ++ [.externalPublication jobId] }
  | stop {s} :
      Step timeout s { s with stopping := true, mailbox := s.mailbox ++ [.stop] }
  | machine {s} (jobId : String) (job : Job) (state : JobState) (h : s.jobs jobId = some job)
      (hprior : job.state ∈ [JobState.readyToRun, .recoveryRequired])
      (hresult : state ∈ [JobState.completed, .recoveryRequired]) (hlock : s.Unlocked) :
      Step timeout s (s.write jobId { job with state := state, revision := job.revision + 1 })
  -- The thread of the coordinator takes an item.
  | receive {s} (e : Nat) (mailbox : List Item) (h : s.thread = .waiting)
      (hmailbox : s.mailbox = .envelope e :: mailbox) :
      Step timeout s { s.goto (.busy e .received) with mailbox := mailbox }
  | cancel {s} (jobId : String) (job : Job) (mailbox : List Item) (h : s.thread = .waiting)
      (hmailbox : s.mailbox = .cancelWake jobId :: mailbox) (hjob : s.jobs jobId = some job)
      (hallowed : allowedTransition job.state .cancelled job.blockerCode job.kind = true) :
      Step timeout s
        { s.write jobId { job with
            state := .cancelled, revision := job.revision + 1, blockerCode := none } with
          mailbox := mailbox }
  | cancelSkip {s} (jobId : String) (mailbox : List Item) (h : s.thread = .waiting)
      (hmailbox : s.mailbox = .cancelWake jobId :: mailbox) :
      Step timeout s { s with mailbox := mailbox }
  | published {s} (jobId : String) (mailbox : List Item) (h : s.thread = .waiting)
      (hmailbox : s.mailbox = .externalPublication jobId :: mailbox) :
      Step timeout s { s with mailbox := mailbox }
  | getStop {s} (mailbox : List Item) (h : s.thread = .waiting)
      (hmailbox : s.mailbox = .stop :: mailbox) :
      Step timeout s { s.goto .exited with mailbox := mailbox }
  -- It reads the job, and calls the chain.
  | skip {s} (e : Nat) (h : s.thread = .busy e .received)
      (habandoned : (s.envelopes e).state = .abandoned) :
      Step timeout s (s.goto .waiting)
  | process {s} (e : Nat) (h : s.thread = .busy e .received)
      (habandoned : (s.envelopes e).state ≠ .abandoned) :
      Step timeout s (s.goto (.busy e .reading))
  | read {s} (e : Nat) (h : s.thread = .busy e .reading) :
      Step timeout s (s.goto (.busy e (.calling (s.job e))))
  | validate {s} (e : Nat) (before : Option Job) (target : Job)
      (h : s.thread = .busy e (.calling before))
      (htarget : (s.envelopes e).command.target (s.job e) = .ok target) :
      Step timeout s (s.goto (.busy e (.validated before (s.job e) target)))
  | reject {s} (e : Nat) (before : Option Job) (error : String)
      (h : s.thread = .busy e (.calling before))
      (herror : (s.envelopes e).command.target (s.job e) = .error error) :
      Step timeout s (s.goto (.busy e (.rejected before error)))
  -- The chain raises another error, or a conflict with another writer, before it commits.
  | raise {s} (e : Nat) (before current : Option Job) (target : Job) (error : String)
      (h : s.thread = .busy e (.validated before current target) ∨
        s.thread = .busy e (.transacting before current target)) :
      Step timeout s (s.goto (.busy e (.rejected before error)))
  -- The chain asks whether it may commit, before the transaction and at its end.
  | check {s} (e : Nat) (before current : Option Job) (target : Job)
      (h : s.thread = .busy e (.validated before current target)) :
      Step timeout s
        ((s.update e ((s.envelopes e).commitAllowed s.clock).2).goto
          (if ((s.envelopes e).commitAllowed s.clock).1 then
            .busy e (.validated before current target) else .waiting))
  | transact {s} (e : Nat) (before current : Option Job) (target : Job)
      (h : s.thread = .busy e (.validated before current target)) (hcurrent : s.job e = current) :
      Step timeout s (s.goto (.busy e (.transacting before current target)))
  | checkCommit {s} (e : Nat) (before current : Option Job) (target : Job)
      (h : s.thread = .busy e (.transacting before current target)) :
      Step timeout s
        ((s.update e ((s.envelopes e).commitAllowed s.clock).2).goto
          (if ((s.envelopes e).commitAllowed s.clock).1 then
            .busy e (.permitted before current target) else .waiting))
  | commit {s} (e : Nat) (before current : Option Job) (target : Job)
      (h : s.thread = .busy e (.permitted before current target)) :
      Step timeout s
        { (s.write (s.envelopes e).command.jobId target).goto (.busy e (.committed target)) with
          commits := (e, target) :: s.commits }
  | acknowledge {s} (e : Nat) (job : Job) (h : s.thread = .busy e (.committed job)) :
      Step timeout s
        ((s.update e ({ s.envelopes e with result := some job }.acknowledge s.clock).2).goto
          (.busy e (.answered job)))
  -- The job is driven, or failed when the envelope was abandoned.
  | drive {s} (e : Nat) (job : Job) (h : s.thread = .busy e (.answered job))
      (habandoned : (s.envelopes e).state ≠ .abandoned) :
      Step timeout s { s.goto (.busy e .driving) with driven := e :: s.driven }
  | giveUp {s} (e : Nat) (job : Job) (h : s.thread = .busy e (.answered job))
      (habandoned : (s.envelopes e).state = .abandoned) :
      Step timeout s (s.goto (.busy e .failing))
  | advance {s} (e : Nat) (job : Job) (state : JobState) (blockerCode : Option String)
      (h : s.thread = .busy e .driving) (hjob : s.job e = some job)
      (hallowed : allowedTransition job.state state job.blockerCode job.kind = true) :
      Step timeout s
        (s.write (s.envelopes e).command.jobId { job with
          state := state, revision := job.revision + 1, blockerCode := blockerCode })
  | driven {s} (e : Nat) (h : s.thread = .busy e .driving) :
      Step timeout s (s.goto .waiting)
  | driveFails {s} (e : Nat) (h : s.thread = .busy e .driving) :
      Step timeout s (s.goto (.busy e .failing))
  | fail {s} (e : Nat) (job : Job) (h : s.thread = .busy e .failing) (hjob : s.job e = some job) :
      Step timeout s
        ((s.write (s.envelopes e).command.jobId (failUnexpected job)).goto .waiting)
  -- A command that is rejected before its acknowledgement: the revision of its job decides.
  | rejectedUnchanged {s} (e : Nat) (before : Option Job) (error : String)
      (h : s.thread = .busy e (.rejected before error))
      (hsame : sameAuthoritativeRevision before (s.job e) = true) :
      Step timeout s
        ((s.update e ({ s.envelopes e with error := some error }.acknowledge s.clock).2).goto
          .waiting)
  | rejectedChanged {s} (e : Nat) (before : Option Job) (error : String)
      (h : s.thread = .busy e (.rejected before error))
      (hsame : sameAuthoritativeRevision before (s.job e) = false) :
      Step timeout s (s.goto (.busy e (.mismatched error)))
  | completeMissing {s} (e : Nat) (error : String) (h : s.thread = .busy e (.mismatched error))
      (hjob : s.job e = none) :
      Step timeout s
        ((s.update e (((s.envelopes e).completed none).acknowledge s.clock).2).goto .waiting)
  | complete {s} (e : Nat) (job : Job) (error : String)
      (h : s.thread = .busy e (.mismatched error)) (hjob : s.job e = some job) :
      Step timeout s
        (((s.write (s.envelopes e).command.jobId (failUnexpected job)).update e
          (((s.envelopes e).completed (some job)).acknowledge s.clock).2).goto .waiting)

/-- The coordinator when it has started. -/
def initial (clock : Int) (jobs : String → Option Job) : State where
  clock := clock
  count := 0
  envelopes := fun _ => ⟨⟨.submit, ""⟩, 0, none, none, .queued⟩
  callers := fun _ => .outside
  thread := .waiting
  mailbox := []
  stopping := false
  jobs := jobs
  commits := []
  driven := []

/-- A state that a run reaches. -/
def Reachable (timeout : Int) (s : State) : Prop :=
  ∃ clock jobs, Relation.ReflTransGen (Step timeout) (initial clock jobs) s

/-- A rejected command finds its job at the revision that was read before. -/
def Undisturbed (s : State) : Prop :=
  ∀ e before error, s.thread = .busy e (.rejected before error) →
    sameAuthoritativeRevision before (s.job e) = true

/-- A state that a run reaches in which every rejected command finds its job at the revision that
was read before. -/
def ReachableUndisturbed (timeout : Int) (s : State) : Prop :=
  ∃ clock jobs, Relation.ReflTransGen (fun s s' => Step timeout s s' ∧ Undisturbed s)
    (initial clock jobs) s

end JobCoordinator

end DrawingMachine
