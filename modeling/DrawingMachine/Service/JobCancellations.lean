import DrawingMachine.Application.OfflineJobChain
import DrawingMachine.Service.JobCoordinator

/-!
# The cancellations of the job coordinator

Who asked for the cancellation of a job is kept in four places: a flag of the job, the last
request that the chain knows of, a wake in the mailbox of the coordinator, and a flag of the
published projection. The clients register their requests, the thread of the coordinator cancels
jobs on their behalf, either when it finds the wake or while it drives the job, and another
thread stops the coordinator, which sets the flags of all jobs. A step below is what a thread
does between two points at which another thread can interfere. Reads and writes of the stores
may fail.
-/

namespace DrawingMachine

namespace JobCancellation

open JobCoordinator (Job Command failUnexpected)

/-! ### Requests and events -/

/-- A request of a client to cancel a job. -/
structure Request where
  jobId : String
  requestId : String
  requester : RequesterIdentity
  deriving DecidableEq, Repr

/-- A committed event `job.cancelled`, with the requests for the job that were accepted and not
settled as failed when it was committed. -/
structure CancelledEvent where
  jobId : String
  requestId : String
  requester : RequesterIdentity
  outstanding : List Request
  deriving DecidableEq, Repr

/-- What clients see of a job. -/
structure Projection where
  job : Job
  cancellationRequested : Bool
  deriving DecidableEq, Repr

/-- The job after it was cancelled. -/
def cancelledJob (job : Job) : Job :=
  { job with state := .cancelled, revision := job.revision + 1, blockerCode := none }

/-! ### The threads -/

/-- What lies in the mailbox. The requests are numbered in the order of their registration. -/
inductive Item where
  | cancelWake (n : Nat)
  | command (command : Command)
  | externalPublication (jobId : String)
  | stop
  deriving DecidableEq, Repr

/-- Who holds the lock of the coordinator over several effects. -/
inductive Holder where
  /-- A call of `request_cancel` that has registered its request. -/
  | requestCancel (n : Nat)
  /-- A call of `stop` that sets the flags. -/
  | stop
  deriving DecidableEq, Repr

/-- Where the thread of the coordinator is. -/
inductive Thread where
  /-- It waits for the mailbox. -/
  | waiting
  /-- It has taken a wake. -/
  | processingCancel (n : Nat)
  /-- It calls the chain to cancel the job of a wake. -/
  | cancelling (n : Nat)
  /-- The chain has cancelled the job of a wake, or has found it at its end. -/
  | cancelled (n : Nat) (job : Job)
  /-- The cancellation of a wake has raised an exception. -/
  | recovering (n : Nat)
  /-- The projection of a job is about to be rebuilt. -/
  | rebuilding (jobId : String) (job : Job)
  /-- It has taken a command. -/
  | processing (command : Command)
  /-- The change of a command is committed. -/
  | acknowledging (jobId : String) (job : Job)
  /-- A job is about to be published, before it is driven on. -/
  | publishing (jobId : String) (job : Job)
  /-- It is about to make the next step of a job. -/
  | driving (jobId : String) (current : Job)
  /-- It makes a step of a job that was not cancelled. -/
  | working (jobId : String)
  /-- It is about to look up who has cancelled a job. -/
  | identifying (jobId : String)
  /-- It cancels a job on behalf of a request, or of the service. -/
  | cancellingAs (jobId : String) (identity : Option Nat)
  /-- The driving of a job has raised an exception. -/
  | failing (jobId : String)
  /-- A job that was failed is about to be published. -/
  | failed (jobId : String) (job : Job)
  | exited
  deriving DecidableEq, Repr

/-- The coordinator, its threads, the jobs, and what has happened. -/
structure State where
  /-- The requests that were registered. -/
  requests : Nat → Request
  count : Nat
  /-- The requests that were settled as failed. -/
  failed : List Nat
  /-- The flags of the jobs. -/
  tokens : String → Option Bool
  /-- The last request of a job that the chain knows of. -/
  metadata : String → Option Nat
  projections : String → Option Projection
  mailbox : List Item
  lock : Option Holder
  stopping : Bool
  thread : Thread
  jobs : String → Option Job
  log : List CancelledEvent

namespace State

variable (s : State)

/-- The requests for a job that were accepted and not settled as failed. -/
def outstanding (jobId : String) : List Request :=
  ((List.range s.count).filter fun n => (s.requests n).jobId = jobId ∧ n ∉ s.failed).map s.requests

/-- The thread of the coordinator goes on. -/
def goto (t : Thread) : State := { s with thread := t }

/-- Write a job. -/
def write (jobId : String) (job : Job) : State :=
  { s with jobs := Function.update s.jobs jobId (some job) }

/-- Replace the projection of a job. -/
def project (jobId : String) (projection : Option Projection) : State :=
  { s with projections := Function.update s.projections jobId projection }

/-- The flag of a job, which there is not before the job is known. -/
def setDefault (jobId : String) : State :=
  { s with
    tokens := Function.update s.tokens jobId (some ((s.tokens jobId).getD false)) }

/-- Clear the flag of a job, unless the coordinator stops. -/
def clear (jobId : String) : State :=
  if s.stopping then s
  else { s with tokens := Function.update s.tokens jobId ((s.tokens jobId).map fun _ => false) }

/-- Publish a job. The projection keeps its flag unless the job is cancelled or the flag is
given. -/
def publish (jobId : String) (job : Job) (requested : Option Bool) : State :=
  s.project jobId (some
    { job := job
      cancellationRequested :=
        if job.state = .cancelled then false
        else
          match requested, s.projections jobId with
          | none, some previous => previous.cancellationRequested
          | some requested, _ => requested
          | none, none => false })

/-- Commit the cancellation of a job. -/
def cancel (jobId : String) (job : Job) (requestId : String) (requester : RequesterIdentity) :
    State :=
  { s.write jobId (cancelledJob job) with
    log := ⟨jobId, requestId, requester, s.outstanding jobId⟩ :: s.log }

/-- The coordinator accepts requests and commands. -/
def Accepting : Prop := s.thread ≠ .exited ∧ s.stopping = false

/-- The job of a request. -/
def jobOf (n : Nat) : String := (s.requests n).jobId

end State

/-- The states at which the chain leaves a job that it is to cancel. -/
def endStates : List JobState := [.cancelled, .failed, .completed]

/-! ### Steps -/

/-- One step of one of the threads, or of the machine. -/
inductive Step : State → State → Prop
  -- A call of `request_cancel`, which holds the lock: the request is registered, and the wake is
  -- put into the mailbox.
  | register {s} (request : Request) (projection : Projection) (hlock : s.lock = none)
      (haccepting : s.Accepting) (hid : request.requestId ≠ "")
      (hprojection : s.projections request.jobId = some projection)
      (hallowed : allowedTransition projection.job.state .cancelled projection.job.blockerCode
        projection.job.kind = true) :
      Step s
        { s with
          requests := Function.update s.requests s.count request
          count := s.count + 1
          tokens := Function.update s.tokens request.jobId (some true)
          metadata := Function.update s.metadata request.jobId (some s.count)
          lock := some (.requestCancel s.count) }
  | enqueue {s} (n : Nat) (hlock : s.lock = some (.requestCancel n)) :
      Step s
        { s with
          projections := Function.update s.projections (s.jobOf n)
            ((s.projections (s.jobOf n)).map fun p => ⟨p.job, true⟩)
          mailbox := s.mailbox ++ [.cancelWake n]
          lock := none }
  -- Calls of `submit` and `publish_external`.
  | submit {s} (command : Command) (hlock : s.lock = none) (haccepting : s.Accepting) :
      Step s { s.setDefault command.jobId with mailbox := s.mailbox ++ [.command command] }
  | publishExternal {s} (jobId : String) (hlock : s.lock = none) (haccepting : s.Accepting) :
      Step s { s with mailbox := s.mailbox ++ [.externalPublication jobId] }
  -- A call of `stop` sets the flags one after the other.
  | stopBegin {s} (hlock : s.lock = none) :
      Step s { s with stopping := true, lock := some .stop }
  | stopToken {s} (jobId : String) (hlock : s.lock = some .stop) :
      Step s
        { s with
          tokens := Function.update s.tokens jobId ((s.tokens jobId).map fun _ => true) }
  | stopEnd {s} (hlock : s.lock = some .stop) (htokens : ∀ jobId, s.tokens jobId ≠ some false) :
      Step s { s with mailbox := s.mailbox ++ [.stop], lock := none }
  -- An execution of the machine ends.
  | machine {s} (jobId : String) (job : Job) (state : JobState) (h : s.jobs jobId = some job)
      (hprior : job.state ∈ [JobState.readyToRun, .recoveryRequired])
      (hresult : state ∈ [JobState.completed, .recoveryRequired]) :
      Step s (s.write jobId { job with state := state, revision := job.revision + 1 })
  -- The thread of the coordinator takes an item.
  | takeStop {s} (mailbox : List Item) (h : s.thread = .waiting)
      (hmailbox : s.mailbox = .stop :: mailbox) :
      Step s { s.goto .exited with mailbox := mailbox }
  | takeExternal {s} (jobId : String) (mailbox : List Item) (h : s.thread = .waiting)
      (hmailbox : s.mailbox = .externalPublication jobId :: mailbox) :
      Step s { s with mailbox := mailbox }
  | takePublished {s} (jobId : String) (job : Job) (mailbox : List Item) (h : s.thread = .waiting)
      (hlock : s.lock = none) (hmailbox : s.mailbox = .externalPublication jobId :: mailbox)
      (hjob : s.jobs jobId = some job) :
      Step s { s.project jobId (some ⟨job, false⟩) with mailbox := mailbox }
  | takeWake {s} (n : Nat) (mailbox : List Item) (h : s.thread = .waiting)
      (hmailbox : s.mailbox = .cancelWake n :: mailbox) :
      Step s { s.goto (.processingCancel n) with mailbox := mailbox }
  | takeCommand {s} (command : Command) (mailbox : List Item) (h : s.thread = .waiting)
      (hlock : s.lock = none) (hmailbox : s.mailbox = .command command :: mailbox) :
      Step s { (s.setDefault command.jobId).goto (.processing command) with mailbox := mailbox }
  | takeAbandoned {s} (command : Command) (mailbox : List Item) (h : s.thread = .waiting)
      (hmailbox : s.mailbox = .command command :: mailbox) :
      Step s { s with mailbox := mailbox }
  -- It looks at the projection of the job of a wake.
  | wakeUnknown {s} (n : Nat) (h : s.thread = .processingCancel n) (hlock : s.lock = none)
      (hprojection : s.projections (s.jobOf n) = none) :
      Step s (s.goto .waiting)
  | wakeOver {s} (n : Nat) (projection : Projection) (h : s.thread = .processingCancel n)
      (hlock : s.lock = none) (hprojection : s.projections (s.jobOf n) = some projection)
      (hstate : projection.job.state = .cancelled) :
      Step s ((s.project (s.jobOf n) (some ⟨projection.job, false⟩)).goto .waiting)
  | wakeCancel {s} (n : Nat) (projection : Projection) (h : s.thread = .processingCancel n)
      (hlock : s.lock = none) (hprojection : s.projections (s.jobOf n) = some projection)
      (hstate : projection.job.state ≠ .cancelled) :
      Step s (s.goto (.cancelling n))
  -- It cancels the job of a wake, unless the job has ended.
  | cancelEnded {s} (n : Nat) (job : Job) (h : s.thread = .cancelling n)
      (hjob : s.jobs (s.jobOf n) = some job) (hended : job.state ∈ endStates) :
      Step s (s.goto (.cancelled n job))
  | cancelCommit {s} (n : Nat) (job : Job) (h : s.thread = .cancelling n)
      (hjob : s.jobs (s.jobOf n) = some job) (hended : job.state ∉ endStates)
      (hallowed : allowedTransition job.state .cancelled job.blockerCode job.kind = true) :
      Step s ((s.cancel (s.jobOf n) job (s.requests n).requestId (s.requests n).requester).goto
        (.cancelled n (cancelledJob job)))
  | cancelPublish {s} (n : Nat) (job : Job) (h : s.thread = .cancelled n job)
      (hlock : s.lock = none) :
      Step s ((s.publish (s.jobOf n) job (some false)).goto .waiting)
  | cancelRaises {s} (n : Nat)
      (h : s.thread = .cancelling n ∨ ∃ job, s.thread = .cancelled n job) :
      Step s (s.goto (.recovering n))
  -- It recovers from the failure of a cancellation: the flag is cleared unless the job was
  -- cancelled all the same, and what the chain knows of the request stays.
  | recoverMissing {s} (n : Nat) (h : s.thread = .recovering n) (hlock : s.lock = none)
      (hjob : s.jobs (s.jobOf n) = none) :
      Step s { (s.project (s.jobOf n) none).goto .waiting with failed := n :: s.failed }
  | recoverCancelled {s} (n : Nat) (job : Job) (h : s.thread = .recovering n)
      (hjob : s.jobs (s.jobOf n) = some job) (hstate : job.state = .cancelled) :
      Step s (s.goto (.rebuilding (s.jobOf n) job))
  | recover {s} (n : Nat) (job : Job) (h : s.thread = .recovering n) (hlock : s.lock = none)
      (hjob : s.jobs (s.jobOf n) = some job) (hstate : job.state ≠ .cancelled) :
      Step s
        { (s.clear (s.jobOf n)).goto (.rebuilding (s.jobOf n) job) with failed := n :: s.failed }
  | rebuild {s} (jobId : String) (job : Job) (h : s.thread = .rebuilding jobId job)
      (hlock : s.lock = none) :
      Step s ((s.project jobId (some ⟨job, false⟩)).goto .waiting)
  -- The recovery fails. A projection that there is is then replaced by one that is made with too
  -- many arguments, which ends the thread.
  | recoverRaises {s} (n : Nat) (h : s.thread = .recovering n) (hlock : s.lock = none)
      (hprojection : s.projections (s.jobOf n) = none) :
      Step s { (s.clear (s.jobOf n)).goto .waiting with failed := n :: s.failed }
  | recoverEnds {s} (n : Nat) (projection : Projection) (h : s.thread = .recovering n)
      (hlock : s.lock = none) (hprojection : s.projections (s.jobOf n) = some projection) :
      Step s { (s.clear (s.jobOf n)).goto .exited with failed := n :: s.failed }
  -- It commits the change of a command, and acknowledges it.
  | commit {s} (command : Command) (target : Job) (h : s.thread = .processing command)
      (htarget : command.target (s.jobs command.jobId) = .ok target) :
      Step s ((s.write command.jobId target).goto (.acknowledging command.jobId target))
  | reject {s} (command : Command) (h : s.thread = .processing command) :
      Step s (s.goto .waiting)
  | rejectChanged {s} (command : Command) (h : s.thread = .processing command) :
      Step s (s.goto (.failing command.jobId))
  | acknowledge {s} (jobId : String) (job : Job) (h : s.thread = .acknowledging jobId job)
      (hlock : s.lock = none) :
      Step s ((s.publish jobId job none).goto (.publishing jobId job))
  | giveUp {s} (jobId : String) (job : Job) (h : s.thread = .acknowledging jobId job) :
      Step s (s.goto (.failing jobId))
  -- It drives a job.
  | publish {s} (jobId : String) (job : Job) (h : s.thread = .publishing jobId job)
      (hlock : s.lock = none) :
      Step s ((s.publish jobId job none).goto (.driving jobId job))
  | driven {s} (jobId : String) (current : Job) (h : s.thread = .driving jobId current)
      (hstate : current.state ∈ OfflineJobChain.driveTerminal) :
      Step s (s.goto .waiting)
  | foundCancelled {s} (jobId : String) (current : Job) (h : s.thread = .driving jobId current)
      (hstate : current.state ∉ OfflineJobChain.driveTerminal)
      (htoken : s.tokens jobId = some true) :
      Step s (s.goto (.identifying jobId))
  | work {s} (jobId : String) (current : Job) (h : s.thread = .driving jobId current)
      (hstate : current.state ∉ OfflineJobChain.driveTerminal)
      (htoken : s.tokens jobId ≠ some true) :
      Step s (s.goto (.working jobId))
  | advance {s} (jobId : String) (job : Job) (state : JobState) (blockerCode : Option String)
      (h : s.thread = .working jobId) (hjob : s.jobs jobId = some job)
      (hallowed : allowedTransition job.state state job.blockerCode job.kind = true)
      (hstate : state ≠ .cancelled) :
      Step s
        ((s.write jobId ⟨job.kind, state, job.revision + 1, blockerCode⟩).goto
          (.publishing jobId ⟨job.kind, state, job.revision + 1, blockerCode⟩))
  | unchanged {s} (jobId : String) (job : Job) (h : s.thread = .working jobId)
      (hjob : s.jobs jobId = some job) :
      Step s (s.goto (.publishing jobId job))
  | workerCancelled {s} (jobId : String) (h : s.thread = .working jobId) :
      Step s (s.goto (.identifying jobId))
  -- It looks up who has cancelled the job, and cancels it on their behalf.
  | identify {s} (jobId : String) (h : s.thread = .identifying jobId) :
      Step s (s.goto (.cancellingAs jobId (s.metadata jobId)))
  | driveEnded {s} (jobId : String) (identity : Option Nat) (job : Job)
      (h : s.thread = .cancellingAs jobId identity) (hjob : s.jobs jobId = some job)
      (hended : job.state ∈ endStates) :
      Step s (s.goto (.publishing jobId job))
  | driveCancel {s} (jobId : String) (n : Nat) (job : Job)
      (h : s.thread = .cancellingAs jobId (some n)) (hjob : s.jobs jobId = some job)
      (hallowed : allowedTransition job.state .cancelled job.blockerCode job.kind = true) :
      Step s ((s.cancel jobId job (s.requests n).requestId (s.requests n).requester).goto
        (.publishing jobId (cancelledJob job)))
  | serviceCancel {s} (jobId requestId : String) (job : Job)
      (h : s.thread = .cancellingAs jobId none) (hjob : s.jobs jobId = some job)
      (hallowed : allowedTransition job.state .cancelled job.blockerCode job.kind = true) :
      Step s ((s.cancel jobId job requestId .service).goto
        (.publishing jobId (cancelledJob job)))
  -- The driving raises an exception, and the job is failed.
  | driveRaises {s} (jobId : String)
      (h : s.thread = .working jobId ∨ (∃ job, s.thread = .publishing jobId job) ∨
        (∃ current, s.thread = .driving jobId current) ∨
        ∃ identity, s.thread = .cancellingAs jobId identity) :
      Step s (s.goto (.failing jobId))
  | fail {s} (jobId : String) (job : Job) (h : s.thread = .failing jobId)
      (hjob : s.jobs jobId = some job) :
      Step s ((s.write jobId (failUnexpected job)).goto (.failed jobId (failUnexpected job)))
  | failPublish {s} (jobId : String) (job : Job) (h : s.thread = .failed jobId job)
      (hlock : s.lock = none) :
      Step s ((s.publish jobId job none).goto .waiting)
  -- When the job cannot be failed, its projection is refreshed if it can be read.
  | failRaises {s} (jobId : String)
      (h : s.thread = .failing jobId ∨ ∃ job, s.thread = .failed jobId job) :
      Step s (s.goto .waiting)
  | failRefresh {s} (jobId : String) (job : Job) (requested : Bool)
      (h : s.thread = .failing jobId ∨ ∃ failed, s.thread = .failed jobId failed)
      (hlock : s.lock = none) (hjob : s.jobs jobId = some job)
      (hrequested : requested = true →
        (s.projections jobId).any Projection.cancellationRequested = true) :
      Step s ((s.project jobId (some ⟨job, requested⟩)).goto .waiting)

/-- The coordinator when it has started: every job is published, and its flag is not set. -/
def initial (jobs : String → Option Job) : State where
  requests := fun _ => ⟨"", "", .service⟩
  count := 0
  failed := []
  tokens := fun jobId => (jobs jobId).map fun _ => false
  metadata := fun _ => none
  projections := fun jobId => (jobs jobId).map fun job => ⟨job, false⟩
  mailbox := []
  lock := none
  stopping := false
  thread := .waiting
  jobs := jobs
  log := []

/-- A state that a run reaches. -/
def Reachable (s : State) : Prop := ∃ jobs, Relation.ReflTransGen Step (initial jobs) s

/-! ### Attribution -/

/-- The event names a request that is outstanding for its job, or the service when there is
none. -/
def CancelledEvent.Attributed (e : CancelledEvent) : Prop :=
  (∃ r ∈ e.outstanding, r.requestId = e.requestId ∧ r.requester = e.requester) ∨
    (e.requester = .service ∧ e.outstanding = [])

/-- The last request that the chain knows of for the job was settled as failed. -/
def Stale (s : State) (jobId : String) : Prop := ∃ n, s.metadata jobId = some n ∧ n ∈ s.failed

/-- In the step, a request for the job is registered. -/
def Registers (s s' : State) (jobId : String) : Prop :=
  s'.count = s.count + 1 ∧ s'.jobOf s.count = jobId

/-- The chain does not look up who has cancelled a job while the last request it knows of for the
job was settled as failed, and no request for a job is registered after the chain has looked up
who has cancelled it and has found nobody. -/
structure Undisturbed (s s' : State) : Prop where
  stale : ∀ jobId, s.thread = .identifying jobId → ¬ Stale s jobId
  late : ∀ jobId, s.thread = .cancellingAs jobId none → ¬ Registers s s' jobId

/-- A state that a run reaches whose steps are undisturbed. -/
def ReachableUndisturbed (s : State) : Prop :=
  ∃ jobs, Relation.ReflTransGen (fun s s' => Step s s' ∧ Undisturbed s s') (initial jobs) s

end JobCancellation

end DrawingMachine
