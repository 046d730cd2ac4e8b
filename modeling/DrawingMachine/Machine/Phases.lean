import DrawingMachine.Errors

/-!
# Phases, milestones and the edges between them

The closed enumerations of a machine execution, the table of phase edges, and the
rules for stream milestones and recovery dispositions.
-/

namespace DrawingMachine

/-- What a recovered execution may be used for. -/
inductive RecoveryIntent where
  | preStreamRestart | streamAmbiguousReleaseOnly | postStreamSafeHome
  deriving DecidableEq, Repr

/-- What the operator decides to do with a recovered execution. -/
inductive RecoveryDisposition where
  | release | restartSequence | safeHome
  deriving DecidableEq, Repr

/-- An action of the machine. -/
inductive MachineAction where
  | prepareSession | home | zcal | zconfirm | stream | homeZ | recover
  deriving DecidableEq, Repr

/-- The phase of a machine execution. -/
inductive MachinePhase where
  | preparingSession
  | awaitingHomeApproval
  | homing
  | awaitingZcalApproval
  | zCalibrating
  | awaitingZconfirmApproval
  | zConfirming
  | awaitingStreamApproval
  | streaming
  | awaitingHomeZApproval
  | homingZ
  | completed
  | recoveryRequired
  deriving DecidableEq, Repr

/-- How far the stream of an execution has got. -/
inductive StreamMilestone where
  | notStarted | firstWritePossible | streamConfirmed
  deriving DecidableEq, Repr

/-- How an execution stops owning the machine. -/
inductive RetirementDisposition where
  | completed | released | transferred
  deriving DecidableEq, Repr

/-- The name of an action. -/
def MachineAction.value : MachineAction → String
  | .prepareSession => "PREPARE_SESSION"
  | .home => "HOME"
  | .zcal => "ZCAL"
  | .zconfirm => "ZCONFIRM"
  | .stream => "STREAM"
  | .homeZ => "HOME_Z"
  | .recover => "RECOVER"

/-- All actions, in the order of the enumeration. -/
def MachineAction.all : List MachineAction :=
  [.prepareSession, .home, .zcal, .zconfirm, .stream, .homeZ, .recover]

/-! ### Phase edges -/

/-- The edges of an execution that draws. -/
def normalEdges : List (MachinePhase × MachineAction × MachinePhase) :=
  [ (.preparingSession, .prepareSession, .awaitingHomeApproval),
    (.awaitingHomeApproval, .home, .homing),
    (.homing, .home, .awaitingZcalApproval),
    (.awaitingZcalApproval, .zcal, .zCalibrating),
    (.zCalibrating, .zcal, .awaitingZconfirmApproval),
    (.awaitingZconfirmApproval, .zconfirm, .zConfirming),
    (.zConfirming, .zconfirm, .awaitingStreamApproval),
    (.awaitingStreamApproval, .stream, .streaming),
    (.streaming, .stream, .completed),
    (.streaming, .stream, .awaitingHomeZApproval),
    (.awaitingHomeZApproval, .homeZ, .homingZ),
    (.homingZ, .homeZ, .completed) ]

/-- The edges of a successor that restarts the sequence. -/
def preStreamSuccessorEdges : List (MachinePhase × MachineAction × MachinePhase) :=
  normalEdges

/-- The edges of a successor that only homes the machine after a confirmed stream. -/
def postStreamSafeHomeEdges : List (MachinePhase × MachineAction × MachinePhase) :=
  [ (.preparingSession, .prepareSession, .awaitingHomeApproval),
    (.awaitingHomeApproval, .home, .homing),
    (.homing, .home, .completed) ]

/-- The edges open to an execution with the given recovery intent. -/
def edgesFor : Option RecoveryIntent → List (MachinePhase × MachineAction × MachinePhase)
  | none => normalEdges
  | some .preStreamRestart => preStreamSuccessorEdges
  | some .streamAmbiguousReleaseOnly => []
  | some .postStreamSafeHome => postStreamSafeHomeEdges

/-- Whether an explicit, already authorized transition edge is legal. -/
def allowedPhaseTransition (prior : MachinePhase) (action : MachineAction) (result : MachinePhase)
    (recoveryIntent : Option RecoveryIntent) : Bool :=
  (prior, action, result) ∈ edgesFor recoveryIntent

/-- Whether a disposition may follow a recovery intent; a release is always allowed and
never creates a successor. -/
def allowedRecoveryDisposition (intent : RecoveryIntent) (disposition : RecoveryDisposition) :
    Bool :=
  disposition = .release ∨
    (intent = .preStreamRestart ∧ disposition = .restartSequence) ∨
    (intent = .postStreamSafeHome ∧ disposition = .safeHome)

/-! ### Milestones -/

/-- The place of a milestone in their order. -/
def StreamMilestone.order : StreamMilestone → Nat
  | .notStarted => 0
  | .firstWritePossible => 1
  | .streamConfirmed => 2

/-- Whether a milestone may follow another: the same one, or the next. -/
def allowedStreamMilestoneTransition (prior result : StreamMilestone) : Bool :=
  result.order = prior.order ∨ result.order = prior.order + 1

/-- The recovery intent that a milestone determines. -/
def recoveryIntentForMilestone : StreamMilestone → RecoveryIntent
  | .notStarted => .preStreamRestart
  | .firstWritePossible => .streamAmbiguousReleaseOnly
  | .streamConfirmed => .postStreamSafeHome

/-- Distinct milestones have distinct places in their order. -/
theorem StreamMilestone.order_injective : Function.Injective StreamMilestone.order := by
  intro a b h
  cases a <;> cases b <;> first | rfl | cases h

/-- Distinct milestones determine distinct recovery intents. -/
theorem recoveryIntentForMilestone_injective :
    Function.Injective recoveryIntentForMilestone := by
  intro a b h
  cases a <;> cases b <;> first | rfl | cases h

end DrawingMachine
