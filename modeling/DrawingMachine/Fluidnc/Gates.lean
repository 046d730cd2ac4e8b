import DrawingMachine.Fluidnc.Status

/-!
# Gates on the controller

The decisions that are made on a snapshot of the controller: whether it is ready for an
action, whether a motion ended where it should, and whether the lines of a session show
that the controller was reset.
-/

namespace DrawingMachine

/-- What a gate decides. -/
inductive GateDisposition where
  | ready | awaitHomeOnly | recoveryRequired | blocked
  deriving DecidableEq, Repr

/-- When in a session its lines were observed. -/
inductive SessionObservationPhase where
  | freshStabilization | stabilized | actionAdmitted
  deriving DecidableEq, Repr

/-- The decision of a gate, with its reasons. -/
structure GateDecision where
  disposition : GateDisposition
  blockers : List String := []
  warnings : List String := []
  deriving DecidableEq, Repr

/-- The error of a gate that is given no observation. -/
def invalidGate (message field : String) : ErrorPayload where
  code := "FLUIDNC_GATE_INVALID"
  category := .hardware
  message := message
  retryable := false
  details := [("field", field)]

/-- The decision of a gate that is blocked by the given reasons. -/
def blockedOrReady (blockers : List String) : GateDecision where
  disposition := if blockers = [] then .ready else .blocked
  blockers := blockers

/-- A gate is open exactly when nothing blocks it. -/
@[simp] theorem blockedOrReady_disposition_eq_ready_iff {blockers : List String} :
  (blockedOrReady blockers).disposition = .ready ↔ blockers = []
  := by
  unfold blockedOrReady
  by_cases h : blockers = [] <;> simp [h]

/-- The reasons of those conditions that hold. -/
def reasons (conditions : List (Bool × String)) : List String :=
  (conditions.filter Prod.fst).map Prod.snd

/-- No reason is given exactly when none of the conditions holds. -/
@[simp] theorem reasons_eq_nil_iff {conditions : List (Bool × String)} :
  reasons conditions = [] ↔ ∀ c ∈ conditions, c.1 = false
  := by
  simp [reasons, List.filter_eq_nil_iff]

section

variable (p : Platform)

/-! ### Gates on a snapshot -/

/-- A controller that reports to be idle. -/
def ControllerStatus.isIdle (s : ControllerStatus) : Bool :=
  s.state = .idle && s.stateText = FluidNCState.idle.value

/-- The reasons against an action on the controller. -/
def preflightBlockers (snapshot : PreflightSnapshot) (requireG54 : Bool) : List String :=
  reasons
    [ (!snapshot.status.isIdle,
        "controller state is " ++ p.repr snapshot.status.stateText ++ ", expected 'Idle'"),
      (!snapshot.errors.isEmpty, "controller returned one or more preflight errors"),
      (!snapshot.missingOkCommands.isEmpty,
        "one or more read-only preflight commands did not return ok"),
      (requireG54 && snapshot.g54.isNone, "required G54 offset was not observed") ]

/-- The gate of an action. -/
def evaluatePreflight (snapshot : PreflightSnapshot) (requireG54 : Bool) : GateDecision :=
  blockedOrReady (preflightBlockers p snapshot requireG54)

/-- Whether a position is within the tolerance of another one, on every axis. -/
def within (actual expected : Axes) (tolerance : ℚ) : Bool :=
  p.float.near tolerance actual.x expected.x && p.float.near tolerance actual.y expected.y &&
    p.float.near tolerance actual.z expected.z

/-- The reasons against a machine position after homing. -/
def postHomePositionBlockers (snapshot : PreflightSnapshot) (expectedMpos : Vector3)
    (toleranceMm : ℚ) : List String :=
  match snapshot.status.mpos with
  | none => ["post-HOME MPos proof is required"]
  | some mpos =>
      reasons [(!within p mpos expectedMpos.axes toleranceMm,
        "post-HOME MPos is outside the configured tolerance")]

/-- The gate after homing. -/
def evaluatePostHome (snapshot : PreflightSnapshot) (expectedMpos : Vector3) (toleranceMm : ℚ) :
    GateDecision :=
  blockedOrReady (preflightBlockers p snapshot true ++
    postHomePositionBlockers p snapshot expectedMpos toleranceMm)

/-- The reasons against a work position after the calibration. -/
def calibratedPoseBlockers (snapshot : PreflightSnapshot) (expectedWpos : Vector3)
    (toleranceMm : ℚ) : List String :=
  match snapshot.status.mpos, snapshot.computedWposFromMposG54 p.float with
  | some _, some computed =>
      reasons
        [ (!within p computed expectedWpos.axes toleranceMm,
            "post-ZCONFIRM computed work pose is outside the configured tolerance"),
          (snapshot.status.wpos.any fun wpos => !within p wpos computed toleranceMm,
            "reported WPos contradicts MPos minus G54"),
          (snapshot.status.wco.any fun wco => snapshot.g54.any fun g54 =>
              !within p wco g54 toleranceMm,
            "reported WCO contradicts the observed G54 offset") ]
  | _, _ => ["post-ZCONFIRM MPos/G54 pose proof is required"]

/-- The gate after the calibration. -/
def evaluateCalibratedPose (snapshot : PreflightSnapshot) (expectedWpos : Vector3)
    (toleranceMm : ℚ) : GateDecision :=
  blockedOrReady (preflightBlockers p snapshot true ++
    calibratedPoseBlockers p snapshot expectedWpos toleranceMm)

/-! ### Lines of a session -/

/-- The texts that only a controller which was reset writes. -/
def resetMarkers : List Text :=
  ["grbl".toList, "fluidnc".toList, "watchdog".toList, "reset".toList, "invalid header".toList,
    "rst:".toList]

/-- Whether a text occurs in another one. -/
def occursIn (part t : Text) : Bool := t.tails.any fun rest => part.isPrefixOf rest

/-- Whether a line shows that the controller was reset. -/
def hasResetMarker (line : Text) : Bool :=
  resetMarkers.any fun marker => occursIn marker (p.casefold line)

/-- Whether a status shows that the controller was reset: its machine position is zero. -/
def ControllerStatus.atReset (s : ControllerStatus) : Bool :=
  s.mpos = some ⟨some 0, some 0, some 0⟩

/-- The lines that a session may be observed by: at most 256. -/
def checkEvidence (evidence : List Text) : Except ErrorPayload Unit := do
  rejectIf (256 < evidence.length)
    (invalidGate "session evidence must be a bounded exact tuple" "evidence")
  rejectIf (¬ ∀ line ∈ evidence, WellFormedLine p.ucd line)
    (invalidGate "session evidence contains an invalid line" "evidence")

/-- The decision on the lines and the status of a session. -/
def observationDecision (evidence : List Text) (status : ControllerStatus)
    (phase : SessionObservationPhase) : GateDecision :=
  if (evidence.any (hasResetMarker p) || status.atReset) = false then ⟨.ready, [], []⟩
  else if phase = .freshStabilization then
    ⟨.awaitHomeOnly, ["fresh controller session is unhomed; approved HOME is required"], []⟩
  else
    ⟨.recoveryRequired, ["controller reset evidence invalidated the active session"], []⟩

/-- Classify the lines and the status of a session. -/
def classifySessionObservation (evidence : List Text) (status : ControllerStatus)
    (phase : SessionObservationPhase) : Except ErrorPayload GateDecision := do
  checkEvidence p evidence
  return observationDecision p evidence status phase

/-- Recovery is required exactly when a session that is no longer fresh shows a reset. -/
theorem observationDecision_eq_recoveryRequired_iff {evidence : List Text}
    {status : ControllerStatus} {phase : SessionObservationPhase} :
  (observationDecision p evidence status phase).disposition = .recoveryRequired ↔
    phase ≠ .freshStabilization ∧
      ((∃ line ∈ evidence, hasResetMarker p line = true) ∨ status.atReset = true)
  := by
  unfold observationDecision
  by_cases hreset : (evidence.any (hasResetMarker p) || status.atReset) = false
  · rw [if_pos hreset]
    simp only [Bool.or_eq_false_iff, List.any_eq_false] at hreset
    simp only [reduceCtorEq, false_iff, not_and, not_or, not_exists]
    intro _
    exact ⟨hreset.1, by simp [hreset.2]⟩
  · rw [if_neg hreset]
    simp only [Bool.not_eq_false, Bool.or_eq_true, List.any_eq_true] at hreset
    by_cases hphase : phase = .freshStabilization
    · simp [hphase]
    · simp [hphase, hreset]

end

end DrawingMachine
