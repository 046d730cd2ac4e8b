import Mathlib.Data.List.Nodup
import Mathlib.Logic.Function.Basic
import Mathlib.Logic.Relation

/-!
# The coordinator of the machine

One thread admits and drives every command of the machine. Other threads submit commands: each
puts an envelope into the mailbox of the coordinator and waits, until a deadline, for the
acknowledgement that the command was admitted durably. The threads share the state of the
coordinator under one lock, and the state of an envelope under the lock of the envelope. A step
below is what a thread does between two points at which another thread can interfere.
-/

namespace DrawingMachine

/-! ### Envelopes -/

/-- The state of an envelope. -/
inductive EnvelopeState where
  | queued | admitting | committed | withdrawn
  deriving DecidableEq, Repr

/-- A submitted command: its deadline, and what its submitter is told. -/
structure Envelope (ρ ε : Type) where
  deadline : Int
  acknowledged : Bool := false
  result : Option ρ := none
  error : Option ε := none
  projectionReady : Bool := false
  state : EnvelopeState := .queued

namespace Envelope

variable {ρ ε : Type} (envelope : Envelope ρ ε)

/-- The coordinator takes the envelope for admission, unless it is no longer queued. -/
def beginAdmission : Bool × Envelope ρ ε :=
  if envelope.state ≠ .queued then (false, envelope)
  else (true, { envelope with state := .admitting })

/-- The submitter still waits for the admission. -/
def stillRequested (now : Int) : Bool :=
  envelope.state = .admitting ∧ now < envelope.deadline

/-- The submitter takes the envelope back, when it is queued. -/
def withdrawQueued : Bool × Envelope ρ ε :=
  if envelope.state ≠ .queued then (false, envelope)
  else (true, { envelope with state := .withdrawn })

/-- A queued envelope is rejected with an error. -/
def rejectQueued (error : ε) : Bool × Envelope ρ ε :=
  if envelope.state ≠ .queued then (false, envelope)
  else (true,
    { envelope with
      state := .withdrawn
      error := some error
      acknowledged := true
      projectionReady := true })

/-- The admission is acknowledged with its result. -/
def commit (result : ρ) : Bool × Envelope ρ ε :=
  if envelope.state = .withdrawn then (false, envelope)
  else (true,
    { envelope with
      state := .committed
      result := some result
      acknowledged := true })

/-- The admission has failed. -/
def failed (error : ε) : Envelope ρ ε :=
  if envelope.state = .withdrawn ∨ envelope.state = .committed then envelope
  else
    { envelope with
      error := some error
      acknowledged := true
      projectionReady := true }

end Envelope

namespace MachineCoordinator

/-! ### The threads -/

/-- Where a call of `submit` is. -/
inductive Caller (ρ ε : Type) where
  /-- It has not begun. -/
  | outside
  /-- The deadline is computed. -/
  | preparing (observed : Bool) (deadline : Int)
  /-- The coordinator does not accept commands. -/
  | refused
  /-- It waits for the acknowledgement. -/
  | waiting (observed : Bool) (envelope : Nat)
  /-- The wait has returned without an acknowledgement. -/
  | expired (envelope : Nat)
  /-- It has raised `MACHINE_COORDINATOR_ACK_TIMEOUT`. -/
  | timedOut (envelope : Nat)
  /-- The wait has returned with an acknowledgement. -/
  | answered (observed : Bool) (envelope : Nat)
  /-- It has raised the error of its envelope. -/
  | raised (envelope : Nat) (error : ε)
  /-- It has raised `MACHINE_COORDINATOR_FAILED`. -/
  | incomplete (envelope : Nat)
  /-- It waits for the projection of its result. -/
  | projecting (envelope : Nat) (result : ρ)
  /-- It has returned. -/
  | returned (envelope : Nat) (result : ρ)

/-- Where the thread of the coordinator is. -/
inductive Thread (ρ ε : Type) where
  /-- The chain is built and reconciled. -/
  | starting
  /-- It waits for the mailbox. -/
  | waiting
  /-- An envelope was taken out of the mailbox. -/
  | received (envelope : Nat)
  /-- The envelope was not taken for admission. -/
  | unclaimed
  /-- The envelope was taken for admission. -/
  | claimed (envelope : Nat)
  /-- The chain admits the command, and has found it still requested a number of times. -/
  | admitting (envelope : Nat) (checks : Nat)
  /-- The chain has raised an error, which is fatal or not. -/
  | raising (envelope : Nat) (error : ε) (fatal : Bool)
  /-- The chain has admitted the command, which is to be driven or not. -/
  | admitted (envelope : Nat) (result : ρ) (drives : Bool)
  /-- The admission is acknowledged, and its projection is published. -/
  | acknowledged (envelope : Nat) (drives : Bool)
  /-- The chain drives the command on the hardware. -/
  | driving (envelope : Nat)
  /-- The command is processed. -/
  | settled
  /-- An error ends the coordinator. -/
  | failing (envelope : Nat) (error : ε)
  /-- The coordinator is about to be marked as failed. -/
  | marking
  /-- The mailbox is emptied; an envelope may be on its way to its rejection. -/
  | rejecting (envelope : Option Nat)
  /-- The chain is shut down. -/
  | closing
  | exited

/-- The envelope that the thread has taken out of the mailbox, and not for admission. -/
def Thread.holds {ρ ε : Type} : Thread ρ ε → Option Nat
  | .received e => some e
  | .rejecting e => e
  | _ => none

/-- The envelope that the thread has taken for admission. -/
def Thread.serves {ρ ε : Type} : Thread ρ ε → Option Nat
  | .claimed e => some e
  | .admitting e _ => some e
  | .raising e _ _ => some e
  | .admitted e _ _ => some e
  | .acknowledged e _ => some e
  | .driving e => some e
  | .failing e _ => some e
  | _ => none

/-- What lies in the mailbox. -/
inductive Item where
  | envelope (e : Nat)
  | stop
  deriving DecidableEq, Repr

/-- The coordinator, its threads, and what has happened. The thread of `stop` that empties the
mailbox holds the lock meanwhile; it may have an envelope in its hands. -/
structure State (ρ ε : Type) where
  clock : Int
  count : Nat
  envelopes : Nat → Envelope ρ ε
  callers : Nat → Caller ρ ε
  thread : Thread ρ ε
  mailbox : List Item
  stopper : Option (Option Nat)
  stopping : Bool
  fatal : Bool
  joined : Bool
  startupFailed : Bool
  /-- `stop` has set the flag. -/
  stopped : Bool
  /-- The envelopes whose command was passed to `admit_action`. -/
  passed : List Nat
  /-- The checks of an admission: the envelope, the time, and the answer. -/
  checks : List (Nat × Int × Bool)
  /-- The results of the admissions. -/
  admissions : List (Nat × ρ)
  /-- The envelopes whose command was driven on the hardware. -/
  driven : List Nat

namespace State

variable {ρ ε : Type} (s : State ρ ε)

/-- The lock of the coordinator is free. -/
def Unlocked : Prop := s.stopper = none

/-- The coordinator accepts commands. -/
def Accepting : Prop :=
  s.fatal = false ∧ s.joined = false ∧ s.thread ≠ .exited ∧ s.stopping = false

/-- Change an envelope. -/
def update (e : Nat) (envelope : Envelope ρ ε) : State ρ ε :=
  { s with envelopes := Function.update s.envelopes e envelope }

/-- A call of `submit` goes on. -/
def caller (i : Nat) (c : Caller ρ ε) : State ρ ε :=
  { s with callers := Function.update s.callers i c }

/-- The thread of the coordinator goes on. -/
def goto (t : Thread ρ ε) : State ρ ε := { s with thread := t }

end State

/-! ### Steps -/

variable {ρ ε : Type}

/-- What an acknowledged call does: it raises the error of its envelope, or returns its result,
after the projection when it waits for that. -/
def answer (observed : Bool) (e : Nat) (envelope : Envelope ρ ε) : Caller ρ ε :=
  match envelope.error, envelope.result with
  | some error, _ => .raised e error
  | none, none => .incomplete e
  | none, some result => if observed then .projecting e result else .returned e result

/-- One step of one of the threads, or of the clock. The time until the deadline of a command is
`timeout`, a stopped command is rejected with the error `stoppedError`, and one that is no longer
requested fails with `withdrawnError`. -/
inductive Step (timeout : Int) (stoppedError withdrawnError : ε) : State ρ ε → State ρ ε → Prop
  | tick {s} (d : Nat) : Step timeout stoppedError withdrawnError s { s with clock := s.clock + d }
  -- A call of `submit`.
  | call {s} (i : Nat) (observed : Bool) (h : s.callers i = .outside) :
      Step timeout stoppedError withdrawnError s
        (s.caller i (.preparing observed (s.clock + timeout)))
  | submit {s} (i : Nat) (observed : Bool) (deadline : Int)
      (h : s.callers i = .preparing observed deadline) (hlock : s.Unlocked)
      (haccepting : s.Accepting) :
      Step timeout stoppedError withdrawnError s
        { s with
          count := s.count + 1
          envelopes := Function.update s.envelopes s.count { deadline := deadline }
          mailbox := s.mailbox ++ [.envelope s.count]
          callers := Function.update s.callers i (.waiting observed s.count) }
  | refuse {s} (i : Nat) (observed : Bool) (deadline : Int)
      (h : s.callers i = .preparing observed deadline) (hlock : s.Unlocked)
      (haccepting : ¬ s.Accepting) :
      Step timeout stoppedError withdrawnError s (s.caller i .refused)
  | acknowledged {s} (i : Nat) (observed : Bool) (e : Nat) (h : s.callers i = .waiting observed e)
      (hacknowledged : (s.envelopes e).acknowledged = true) :
      Step timeout stoppedError withdrawnError s (s.caller i (.answered observed e))
  | expire {s} (i : Nat) (observed : Bool) (e : Nat) (h : s.callers i = .waiting observed e)
      (hdeadline : (s.envelopes e).deadline ≤ s.clock) :
      Step timeout stoppedError withdrawnError s (s.caller i (.expired e))
  | withdraw {s} (i e : Nat) (h : s.callers i = .expired e) :
      Step timeout stoppedError withdrawnError s
        ((s.update e (s.envelopes e).withdrawQueued.2).caller i (.timedOut e))
  | answer {s} (i : Nat) (observed : Bool) (e : Nat) (h : s.callers i = .answered observed e) :
      Step timeout stoppedError withdrawnError s
        (s.caller i (answer observed e (s.envelopes e)))
  | project {s} (i e : Nat) (result : ρ) (h : s.callers i = .projecting e result)
      (hready : (s.envelopes e).projectionReady = true) :
      Step timeout stoppedError withdrawnError s (s.caller i (.returned e result))
  -- A call of `stop`: the first one empties the mailbox under the lock, and every one joins.
  | stop {s} (hlock : s.Unlocked) (hstopping : s.stopping = false) (hjoined : s.joined = false) :
      Step timeout stoppedError withdrawnError s
        { s with stopping := true, stopped := true, stopper := some none }
  | stopGet {s} (e : Nat) (mailbox : List Item) (h : s.stopper = some none)
      (hmailbox : s.mailbox = .envelope e :: mailbox) :
      Step timeout stoppedError withdrawnError s
        { s with mailbox := mailbox, stopper := some (some e) }
  | stopSkip {s} (mailbox : List Item) (h : s.stopper = some none)
      (hmailbox : s.mailbox = .stop :: mailbox) :
      Step timeout stoppedError withdrawnError s { s with mailbox := mailbox }
  | stopReject {s} (e : Nat) (h : s.stopper = some (some e)) :
      Step timeout stoppedError withdrawnError s
        { s.update e ((s.envelopes e).rejectQueued stoppedError).2 with stopper := some none }
  | stopPut {s} (h : s.stopper = some none) (hmailbox : s.mailbox = [])
      (halive : s.thread ≠ .exited) :
      Step timeout stoppedError withdrawnError s
        { s with mailbox := [.stop], stopper := none }
  | stopDead {s} (h : s.stopper = some none) (hmailbox : s.mailbox = [])
      (hdead : s.thread = .exited) :
      Step timeout stoppedError withdrawnError s { s with stopper := none }
  | join {s} (hlock : s.Unlocked) (hstopping : s.stopping = true) (hexited : s.thread = .exited) :
      Step timeout stoppedError withdrawnError s { s with joined := true, stopping := false }
  -- The thread of the coordinator: its start.
  | start {s} (h : s.thread = .starting) :
      Step timeout stoppedError withdrawnError s (s.goto .waiting)
  | startFails {s} (h : s.thread = .starting) :
      Step timeout stoppedError withdrawnError s { s.goto .exited with startupFailed := true }
  -- It takes an envelope, and claims it under the lock.
  | get {s} (e : Nat) (mailbox : List Item) (h : s.thread = .waiting)
      (hmailbox : s.mailbox = .envelope e :: mailbox) :
      Step timeout stoppedError withdrawnError s { s.goto (.received e) with mailbox := mailbox }
  | getStop {s} (mailbox : List Item) (h : s.thread = .waiting)
      (hmailbox : s.mailbox = .stop :: mailbox) :
      Step timeout stoppedError withdrawnError s
        { s.goto (.rejecting none) with mailbox := mailbox }
  | claimStopped {s} (e : Nat) (h : s.thread = .received e) (hlock : s.Unlocked)
      (hstopping : s.stopping = true) :
      Step timeout stoppedError withdrawnError s
        ((s.update e ((s.envelopes e).rejectQueued stoppedError).2).goto .unclaimed)
  | claim {s} (e : Nat) (h : s.thread = .received e) (hlock : s.Unlocked)
      (hstopping : s.stopping = false) :
      Step timeout stoppedError withdrawnError s
        ((s.update e (s.envelopes e).beginAdmission.2).goto
          (if (s.envelopes e).beginAdmission.1 then .claimed e else .unclaimed))
  | unclaimed {s} (h : s.thread = .unclaimed ∨ s.thread = .settled) (hlock : s.Unlocked) :
      Step timeout stoppedError withdrawnError s
        (s.goto (if s.stopping then .rejecting none else .waiting))
  -- It passes the command to the chain, which checks that it is still requested.
  | pass {s} (e : Nat) (h : s.thread = .claimed e) :
      Step timeout stoppedError withdrawnError s
        { s.goto (.admitting e 0) with passed := e :: s.passed }
  | check {s} (e n : Nat) (h : s.thread = .admitting e n) :
      Step timeout stoppedError withdrawnError s
        { s.goto (if (s.envelopes e).stillRequested s.clock then .admitting e (n + 1)
            else .raising e withdrawnError false) with
          checks := (e, s.clock, (s.envelopes e).stillRequested s.clock) :: s.checks }
  | raise {s} (e n : Nat) (error : ε) (fatal : Bool) (h : s.thread = .admitting e n) :
      Step timeout stoppedError withdrawnError s (s.goto (.raising e error fatal))
  | fail {s} (e : Nat) (error : ε) (fatal : Bool) (h : s.thread = .raising e error fatal) :
      Step timeout stoppedError withdrawnError s
        ((s.update e ((s.envelopes e).failed error)).goto
          (if fatal then .failing e error else .settled))
  -- Every path of the chain checks once before it answers, and twice before it admits a command
  -- that is to be driven.
  | commit {s} (e n : Nat) (result : ρ) (drives : Bool) (h : s.thread = .admitting e n)
      (hchecks : (if drives then 2 else 1) ≤ n) :
      Step timeout stoppedError withdrawnError s
        { s.goto (.admitted e result drives) with admissions := (e, result) :: s.admissions }
  | acknowledge {s} (e : Nat) (result : ρ) (drives : Bool)
      (h : s.thread = .admitted e result drives) :
      Step timeout stoppedError withdrawnError s
        ((s.update e ((s.envelopes e).commit result).2).goto (.acknowledged e drives))
  | publish {s} (e : Nat) (h : s.thread = .acknowledged e false) :
      Step timeout stoppedError withdrawnError s
        ((s.update e { s.envelopes e with projectionReady := true }).goto .settled)
  | drive {s} (e : Nat) (h : s.thread = .acknowledged e true) :
      Step timeout stoppedError withdrawnError s
        { (s.update e { s.envelopes e with projectionReady := true }).goto (.driving e) with
          driven := e :: s.driven }
  | publishFails {s} (e : Nat) (drives : Bool) (error : ε) (h : s.thread = .acknowledged e drives) :
      Step timeout stoppedError withdrawnError s
        ((s.update e { s.envelopes e with projectionReady := true }).goto (.failing e error))
  | driven {s} (e : Nat) (h : s.thread = .driving e) :
      Step timeout stoppedError withdrawnError s (s.goto .settled)
  | driveFails {s} (e : Nat) (error : ε) (h : s.thread = .driving e) :
      Step timeout stoppedError withdrawnError s (s.goto (.failing e error))
  | failed {s} (e : Nat) (error : ε) (h : s.thread = .failing e error) :
      Step timeout stoppedError withdrawnError s
        ((s.update e ((s.envelopes e).failed error)).goto .marking)
  | mark {s} (h : s.thread = .marking) (hlock : s.Unlocked) :
      Step timeout stoppedError withdrawnError s { s.goto (.rejecting none) with fatal := true }
  -- Its end: it rejects what is left in the mailbox.
  | drainGet {s} (e : Nat) (mailbox : List Item) (h : s.thread = .rejecting none)
      (hmailbox : s.mailbox = .envelope e :: mailbox) :
      Step timeout stoppedError withdrawnError s
        { s.goto (.rejecting (some e)) with mailbox := mailbox }
  | drainSkip {s} (mailbox : List Item) (h : s.thread = .rejecting none)
      (hmailbox : s.mailbox = .stop :: mailbox) :
      Step timeout stoppedError withdrawnError s { s with mailbox := mailbox }
  | drainReject {s} (e : Nat) (h : s.thread = .rejecting (some e)) :
      Step timeout stoppedError withdrawnError s
        ((s.update e ((s.envelopes e).rejectQueued stoppedError).2).goto (.rejecting none))
  | drained {s} (h : s.thread = .rejecting none) (hmailbox : s.mailbox = []) :
      Step timeout stoppedError withdrawnError s (s.goto .closing)
  | exit {s} (h : s.thread = .closing) :
      Step timeout stoppedError withdrawnError s (s.goto .exited)
  | shutdownFails {s} (h : s.thread = .closing) (hlock : s.Unlocked) :
      Step timeout stoppedError withdrawnError s { s.goto .exited with fatal := true }

/-- The coordinator when its thread is started. -/
def initial (clock : Int) : State ρ ε where
  clock := clock
  count := 0
  envelopes := fun _ => { deadline := 0 }
  callers := fun _ => .outside
  thread := .starting
  mailbox := []
  stopper := none
  stopping := false
  fatal := false
  joined := false
  startupFailed := false
  stopped := false
  passed := []
  checks := []
  admissions := []
  driven := []

/-- A state that a run reaches. -/
def Reachable (timeout : Int) (stoppedError withdrawnError : ε) (s : State ρ ε) : Prop :=
  ∃ clock, Relation.ReflTransGen (Step timeout stoppedError withdrawnError) (initial clock) s

end MachineCoordinator

end DrawingMachine
