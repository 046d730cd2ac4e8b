import DrawingMachine.Fluidnc.Serial

/-!
# The operations of a session

The six operations that the serial adapter offers: the first look at the controller, the
homing of all axes, the calibration of the pen, its confirmation, the stream of a program,
and the homing of the pen axis. Each gathers what its outcome is built from, and then builds
it; the constructor of the outcome checks that it fits together.
-/

namespace DrawingMachine

namespace Serial

open Interaction

variable (p : Platform) {σ : Type} (t : Transport σ) (session : SerialSession p)

/-- The error of a request that does not match the configuration. -/
def requestMismatch : PortError :=
  .payload {
    code := "FLUIDNC_REQUEST_CONFIG_MISMATCH"
    category := .hardware
    message := "typed FluidNC request does not match the validated machine configuration"
    retryable := false
    details := [] }

/-! ### Operations of a single command -/

/-- What the outcome of a single command is built from. -/
structure SingleReport where
  snapshot : PreflightSnapshot
  failure : Option (FluidNCFailure p.ucd)
  observation : Option Observation
  acknowledgedSteps : Nat
  stage : SingleCommandOutcomeStage

/-- The report of a command that failed. -/
def interruptedReport (failure : FluidNCFailure p.ucd) (evidence : List Text)
    (ackObserved : Bool) : SingleReport p :=
  let snapshot := snapshotFromEvidence p evidence
  let observed := lateObservation p snapshot evidence (some failure)
  ⟨snapshot, observed.1, observed.2, if ackObserved then 1 else 0,
    if ackObserved then .commandAcknowledged else .dispatchAttempted⟩

/-- The failure of a wait for the idle state: its own, or that of its snapshot. -/
def proofFailure (ready : PreflightSnapshot → Bool) (fault : SerialFault)
    (idle : IdleSnapshotResult p) : Option (FluidNCFailure p.ucd) :=
  match idle.failure with
  | some f => some f
  | none => if ready idle.snapshot then none else some (fault.failure p true)

/-- A failure after the controller was idle, reported as one of the postcondition. -/
def actionFailure (fault : SerialFault) (idleObserved : Bool)
    (failure : Option (FluidNCFailure p.ucd)) : Option (FluidNCFailure p.ucd) :=
  if idleObserved then failure.map (fault.postcondition p) else failure

/-- The report of a command that was acknowledged, after the wait for the idle state. -/
def idleReport (ready : PreflightSnapshot → Bool) (fault : SerialFault)
    (commandEvidence : List Text) (idle : IdleSnapshotResult p) : SingleReport p :=
  let failure := proofFailure p ready fault idle
  let observed := lateObservation p idle.snapshot (commandEvidence ++ idle.evidence) failure
  ⟨idle.snapshot, actionFailure p fault idle.idleObserved observed.1, observed.2, 1,
    if failure = none then .postconditionProven
    else if idle.idleObserved then .idleObserved
    else .commandAcknowledged⟩

/-- The outcome of homing all axes that a report makes. -/
def SingleReport.home (request : HomeAllAxesRequest) (r : SingleReport p) : HomeOutcome.Fields p where
  machineSessionEpoch := session.epoch
  request := request
  snapshot := some r.snapshot
  failure := r.failure
  observation := r.observation
  acknowledgedSteps := r.acknowledgedSteps
  stage := r.stage

/-- The outcome of raising the pen that a report makes. -/
def SingleReport.zconfirm (request : ZConfirmationRequest) (r : SingleReport p) :
    ZConfirmationOutcome.Fields p where
  machineSessionEpoch := session.epoch
  request := request
  snapshot := some r.snapshot
  failure := r.failure
  observation := r.observation
  acknowledgedSteps := r.acknowledgedSteps
  stage := r.stage

/-- Whether a snapshot proves that all axes are homed. -/
def homeReady (request : HomeAllAxesRequest) (snapshot : PreflightSnapshot) : Bool :=
  (evaluatePostHome p snapshot request.val.expectedMpos request.val.toleranceMm).disposition = .ready

/-- Whether a snapshot proves that the pen is where it should be. -/
def zconfirmReady (request : ZConfirmationRequest) (snapshot : PreflightSnapshot) : Bool :=
  (evaluateCalibratedPose p snapshot request.val.expectedWorkPosition
    request.val.toleranceMm).disposition = .ready

/-- Whether a request to home all axes matches the configuration. -/
def bindHome (request : HomeAllAxesRequest) : Bool :=
  request.val.expectedMpos = session.config.expectedHomedMpos &&
    request.val.toleranceMm = session.config.positionToleranceMm

/-- Send the command that homes all axes. -/
def homeReport (rounds : Nat) (request : HomeAllAxesRequest) : Adapter σ (SingleReport p) := do
  let deadline ← deadlineAfter p t session.config.homeTimeoutSeconds
  match ← command p t session rounds "$H".toList deadline with
  | .preAckFailure f evidence => return interruptedReport p f evidence false
  | .postAckFailure f evidence => return interruptedReport p f evidence true
  | .ackObserved evidence =>
      let idle ← waitForIdleSnapshot p t session rounds deadline evidence
      return idleReport p (homeReady p request) .postHome evidence idle

/-- Home all axes. -/
def homeAllAxes (rounds : Nat) (request : HomeAllAxesRequest) :
    Adapter σ (Except PortError (HomeOutcome p)) := do
  if bindHome p session request then
    let report ← homeReport p t session rounds request
    return acceptIf (HomeOutcome.Fields.postInit p) (report.home p session request)
  else return .error requestMismatch

/-- A number with three decimals. -/
def fixed (x : ℚ) : Text := fixedText 3 x

/-- Whether a request to raise the pen matches the configuration. -/
def bindZconfirm (request : ZConfirmationRequest) : Bool :=
  let profile := session.config.gcode.val
  request.val.expectedWorkPosition = ⟨profile.paperCenterX, profile.paperCenterY, profile.penUpZ⟩ &&
    request.val.travelZ = profile.penUpZ && request.val.raiseFeed = profile.feedPenUp &&
    request.val.toleranceMm = session.config.positionToleranceMm

/-- The command that raises the pen. -/
def raiseCommand (request : ZConfirmationRequest) : Text :=
  "G1 Z".toList ++ fixed request.val.travelZ ++ " F".toList ++ fixed request.val.raiseFeed

/-- Send the command that raises the pen. -/
def zconfirmReport (rounds : Nat) (request : ZConfirmationRequest) :
    Adapter σ (SingleReport p) := do
  let deadline ← deadlineAfter p t session.config.commandTimeoutSeconds
  match ← command p t session rounds (raiseCommand request) deadline with
  | .preAckFailure f evidence => return interruptedReport p f evidence false
  | .postAckFailure f evidence => return interruptedReport p f evidence true
  | .ackObserved evidence =>
      let deadline ← deadlineAfter p t session.config.streamIdleTimeoutSeconds
      let idle ← waitForIdleSnapshot p t session rounds deadline evidence
      return idleReport p (zconfirmReady p request) .postZconfirm evidence idle

/-- Raise the pen after the calibration. -/
def raiseAfterZConfirmation (rounds : Nat) (request : ZConfirmationRequest) :
    Adapter σ (Except PortError (ZConfirmationOutcome p)) := do
  if bindZconfirm p session request then
    let report ← zconfirmReport p t session rounds request
    return acceptIf (ZConfirmationOutcome.Fields.postInit p) (report.zconfirm p session request)
  else return .error requestMismatch

/-! ### The homing of the pen axis -/

/-- The outcome of homing the pen axis that a snapshot and its observation make. -/
def homeZFields (snapshot : PreflightSnapshot)
    (observed : Option (FluidNCFailure p.ucd) × Option Observation) : HomeZOutcome.Fields p where
  machineSessionEpoch := session.epoch
  snapshot := some snapshot
  failure := observed.1
  observation := observed.2

/-- Gather the outcome of homing the pen axis. -/
def homeZReport (rounds : Nat) : Adapter σ (HomeZOutcome.Fields p) := do
  let deadline ← deadlineAfter p t session.config.homeTimeoutSeconds
  match ← command p t session rounds "$HZ".toList deadline with
  | .preAckFailure f evidence | .postAckFailure f evidence =>
      let snapshot := snapshotFromEvidence p evidence
      return homeZFields p session snapshot (lateObservation p snapshot evidence (some f))
  | .ackObserved evidence =>
      let idle ← waitForIdleSnapshot p t session rounds deadline evidence
      return homeZFields p session idle.snapshot
        (lateObservation p idle.snapshot (evidence ++ idle.evidence) idle.failure)

/-- Home the pen axis. -/
def homeZAxis (rounds : Nat) : Adapter σ (Except PortError (HomeZOutcome p)) := do
  let fields ← homeZReport p t session rounds
  return acceptIf (HomeZOutcome.Fields.postInit p) fields

/-! ### The calibration -/

/-- A sequence of commands that was interrupted: the number of commands acknowledged before,
whether the last one was, its failure, and all lines. -/
structure Interruption where
  acknowledged : Nat
  ackObserved : Bool
  failure : FluidNCFailure p.ucd
  evidence : List Text

/-- Send a sequence of commands, each with its own deadline. -/
def runCommands (rounds : Nat) :
    List Text → Nat → List Text → Adapter σ (Except (Interruption p) (List Text))
  | [], _, evidence => return .ok evidence
  | text :: rest, acknowledged, evidence => do
      let deadline ← deadlineAfter p t session.config.commandTimeoutSeconds
      match ← command p t session rounds text deadline with
      | .preAckFailure f lines => return .error ⟨acknowledged, false, f, evidence ++ lines⟩
      | .postAckFailure f lines => return .error ⟨acknowledged, true, f, evidence ++ lines⟩
      | .ackObserved lines => runCommands rounds rest (acknowledged + 1) (evidence ++ lines)

/-- The commands of a calibration. -/
def zcalCommands (request : ZCalibrationRequest) : List Text :=
  [ "G21".toList,
    "G90".toList,
    "G54".toList,
    "G1 Z".toList ++ fixed request.val.travelZ ++ " F".toList ++ fixed request.val.travelFeed,
    "G0 X".toList ++ fixed request.val.centerX ++ " Y".toList ++ fixed request.val.centerY ++
      " F".toList ++ fixed request.val.travelFeed,
    "G1 Z".toList ++ fixed request.val.contactZ ++ " F".toList ++ fixed request.val.contactFeed ]

/-- Whether a request to calibrate the pen matches the configuration. -/
def bindZcal (request : ZCalibrationRequest) : Bool :=
  let profile := session.config.gcode.val
  request.val.workCoordinate = profile.workCoordinate &&
    request.val.centerX = profile.paperCenterX && request.val.centerY = profile.paperCenterY &&
    request.val.travelZ = profile.penUpZ && request.val.contactZ = profile.penDownZ &&
    request.val.travelFeed = profile.feedTravel && request.val.contactFeed = profile.feedPenDown

/-- The outcome of a calibration that was interrupted. -/
def zcalInterrupted (request : ZCalibrationRequest) (i : Interruption p) :
    ZCalibrationOutcome.Fields p :=
  let snapshot := snapshotFromEvidence p i.evidence
  let observed := lateObservation p snapshot i.evidence (some i.failure)
  { machineSessionEpoch := session.epoch
    request := request
    acknowledgedSteps := if i.ackObserved then i.acknowledged + 1 else i.acknowledged
    snapshot := some snapshot
    failure := observed.1
    observation := observed.2
    stage :=
      (if i.ackObserved then acknowledgedStages else attemptedStages).getD i.acknowledged
        .postcondition }

/-- The outcome of a calibration whose commands were acknowledged. -/
def zcalIdle (request : ZCalibrationRequest) (acknowledged : Nat) (commandEvidence : List Text)
    (idle : IdleSnapshotResult p) : ZCalibrationOutcome.Fields p :=
  let observed := lateObservation p idle.snapshot (commandEvidence ++ idle.evidence) idle.failure
  { machineSessionEpoch := session.epoch
    request := request
    acknowledgedSteps := acknowledged
    snapshot := some idle.snapshot
    failure := actionFailure p .postZcal idle.idleObserved observed.1
    observation := observed.2
    stage := .postcondition }

/-- Gather the outcome of a calibration. -/
def zcalReport (rounds : Nat) (request : ZCalibrationRequest) :
    Adapter σ (ZCalibrationOutcome.Fields p) := do
  match ← runCommands p t session rounds (zcalCommands request) 0 [] with
  | .error i => return zcalInterrupted p session request i
  | .ok evidence =>
      let deadline ← deadlineAfter p t session.config.streamIdleTimeoutSeconds
      let idle ← waitForIdleSnapshot p t session rounds deadline evidence
      return zcalIdle p session request (zcalCommands request).length evidence idle

/-- Calibrate the pen. -/
def runZCalibration (rounds : Nat) (request : ZCalibrationRequest) :
    Adapter σ (Except PortError (ZCalibrationOutcome p)) := do
  if bindZcal p session request then
    let fields ← zcalReport p t session rounds request
    return acceptIf (ZCalibrationOutcome.Fields.postInit p) fields
  else return .error requestMismatch

/-! ### The stream of a program -/

/-- The checks of an update. -/
def StreamProgressUpdate.postInit (u : StreamProgressUpdate) : Except PortError Unit := do
  checkEpoch u.machineSessionEpoch
  refuseIf (u.acknowledgedCommands < 1)
    "acknowledged_commands must be an exact integer of at least 1"
  refuseIf (u.sourceLine < 1) "source_line must be an exact integer of at least 1"
  refuseIf (¬ Sha256Hex u.commandDigest) "progress command digest must be a canonical SHA-256"

variable (sha256 : List UInt8 → String) (progress : StreamProgressUpdate → σ → CallbackResult × σ)

/-- The update of the progress after a command. -/
def updateOf (acknowledged : Nat) (c : StreamCommand) : StreamProgressUpdate :=
  ⟨session.epoch, acknowledged, c.sourceLine, sha256 (Text.encode c.command)⟩

/-- Report the progress of a stream. An update that cannot be built is handled like an
exception of the callback. -/
def reportProgress (acknowledged : Nat) (c : StreamCommand) : Adapter σ CallbackResult :=
  let update := updateOf p session sha256 acknowledged c
  match update.postInit with
  | .error _ => return .otherException
  | .ok () => do
      let result ← perform (progress update)
      record (.progress update result)
      return result

/-- How the commands of a stream are interrupted: by the controller, or by the callback. -/
inductive StreamInterruption where
  | command (acknowledged : Nat) (failure : FluidNCFailure p.ucd) (evidence : List Text)
  | callback (acknowledged : Nat)

/-- Send the commands of a program, and report each acknowledgement. -/
def streamCommands (rounds : Nat) :
    List StreamCommand → Nat → List Text → Adapter σ (Except (StreamInterruption p) (List Text))
  | [], _, evidence => return .ok evidence
  | c :: rest, acknowledged, evidence => do
      let deadline ← deadlineAfter p t session.config.commandTimeoutSeconds
      match ← command p t session rounds c.command deadline with
      | .preAckFailure f lines | .postAckFailure f lines =>
          return .error (.command acknowledged f (evidence ++ lines))
      | .ackObserved lines =>
          match ← reportProgress p session sha256 progress (acknowledged + 1) c with
          | .drawingMachineError => escape .raised
          | .otherException => return .error (.callback (acknowledged + 1))
          | .returned => streamCommands rounds rest (acknowledged + 1) (evidence ++ lines)

/-- The outcome of a stream. -/
def streamFields (total acknowledged : Nat) (snapshot : PreflightSnapshot)
    (observed : Option (FluidNCFailure p.ucd) × Option Observation) : StreamOutcome.Fields p where
  machineSessionEpoch := session.epoch
  totalCommands := total
  acknowledgedCommands := acknowledged
  finalSnapshot := some snapshot
  failure := observed.1
  observation := observed.2

/-- The outcome of a stream that was interrupted. -/
def streamInterrupted (total : Nat) : StreamInterruption p → StreamOutcome.Fields p
  | .command acknowledged f evidence =>
      let snapshot := snapshotFromEvidence p evidence
      streamFields p session total acknowledged snapshot
        (lateObservation p snapshot evidence (some f))
  | .callback acknowledged =>
      streamFields p session total acknowledged unavailableSnapshot
        (some (SerialFault.progressCallback.failure p true), none)

/-- Gather the outcome of a stream. -/
def streamReport (rounds : Nat) (program : ValidatedStreamProgram) :
    Adapter σ (StreamOutcome.Fields p) := do
  let total := program.commands.length
  match ← streamCommands p t session sha256 progress rounds program.commands 0 [] with
  | .error i => return streamInterrupted p session total i
  | .ok evidence =>
      let deadline ← deadlineAfter p t session.config.streamIdleTimeoutSeconds
      let idle ← waitForIdleSnapshot p t session rounds deadline evidence
      return streamFields p session total total idle.snapshot
        (lateObservation p idle.snapshot (evidence ++ idle.evidence) idle.failure)

/-- Stream a program. -/
def streamProgram (rounds : Nat) (program : ValidatedStreamProgram) :
    Adapter σ (Except PortError (StreamOutcome p)) := do
  let fields ← streamReport p t session sha256 progress rounds program
  return acceptIf (StreamOutcome.Fields.postInit p) fields

/-! ### The startup of a session -/

/-- What the startup has read: the lines, their bytes, and whether the controller has
announced that it is ready. -/
structure StartupState where
  lines : List Text := []
  total : Nat := 0
  bannerSeen : Bool := false

/-- Whether a line announces that the controller is ready. -/
def isReadyBanner (line : Text) : Bool := "grbl ".toList.isPrefixOf (p.casefold line)

/-- Whether the bytes of a read are an empty line. -/
def isEmptyLine (raw : List UInt8) : Bool :=
  raw.getLast? = some 10 && raw.all fun b => b = 13 || b = 10

/-- The bytes of a read during the startup. -/
def acceptStartup (state : StartupState) (raw : List UInt8) :
    Adapter σ (StartupState ⊕ Answer p) :=
  let total := state.total + raw.length
  if 256 ≤ state.lines.length ∨ 64 * 1024 < total then
    return .inr (state.lines, some (SerialFault.startupBounds.failure p false))
  else if isEmptyLine raw then return .inl { state with total := total }
  else
    match decodeLine p raw false with
    | .error f => return .inr (state.lines, some f)
    | .ok line => do
        record (.line line)
        return .inl ⟨state.lines ++ [line], total, state.bannerSeen || isReadyBanner p line⟩

/-- A round of the startup. -/
def startupStep (deadline : Reading) (state : StartupState) :
    Adapter σ (StartupState ⊕ Answer p) := do
  let time ← now t
  if passed deadline time then
    return .inr (state.lines, some (SerialFault.startupDeadline.failure p false))
  else
    match ← readRaw p t session deadline false with
    | .error f =>
        if f.val.kind = .timeout then
          if state.lines = [] ∨ state.bannerSeen = true then return .inr (state.lines, none)
          else return .inl state
        else return .inr (state.lines, some f)
    | .ok raw => acceptStartup p state raw

/-- Read what the controller writes when the session is opened. -/
def readStartup (rounds : Nat) : Adapter σ (Answer p) := do
  let deadline ← deadlineAfter p t session.config.settleTimeoutSeconds
  iterate (startupStep p t session deadline) rounds {}

/-- A session that has not read anything yet. -/
def unread (config : SerialConfig) (epoch : String) (h : CanonicalUuid epoch) :
    SerialSession p where
  config := config
  epoch := epoch
  closed := false
  startup := []
  startupFailure := none
  epoch_canonical := h
  startup_wellFormed := by simp
  startup_fits := rfl
  startupFailure_isReset := rfl

/-! ### The first look at the controller -/

/-- What the first look has gathered. -/
structure PreflightState where
  evidence : List Text := []
  statusLine : Option Text := none
  parserLines : List Text := []
  offsetLines : List Text := []
  stabilized : Bool := false

/-- What the outcome of the first look is built from. -/
structure PreflightReport where
  snapshot : PreflightSnapshot
  evidence : List Text
  failure : Option (FluidNCFailure p.ucd)
  phase : SessionObservationPhase

/-- The payload of a query. -/
def queryText (lineEnding : Text) : ControllerQuery → Text
  | .status => "?".toList
  | .parser => "$G".toList ++ lineEnding
  | .offsets => "$#".toList ++ lineEnding

/-- The first line in angle brackets. -/
def firstStatusLine (lines : List Text) : Option Text := lines.find? isBracketed

/-- Whether a status shows a session that is stable: the controller is idle, away from the
position of a reset, and reports its offset. -/
def isStable (status : ControllerStatus) : Bool :=
  status.state = .idle && status.mpos.isSome && !status.atReset && status.wco.isSome

/-- Whether the session is stable after the response to a query. -/
def stabilizedBy (q : ControllerQuery) (lines : List Text) (before : Bool) : Bool :=
  if q = .status then ((firstStatusLine lines).bind (statusFromLine p)).any isStable else before

/-- The state with the answer to a query. -/
def PreflightState.answer (state : PreflightState) (q : ControllerQuery) (lines : List Text) :
    PreflightState :=
  match q with
  | .status => { state with statusLine := firstStatusLine lines }
  | .parser => { state with parserLines := lines.filter (· ≠ "ok".toList) }
  | .offsets => { state with offsetLines := lines.filter (· ≠ "ok".toList) }

/-- The report of a query that failed. -/
def preflightFailed (state : PreflightState) (lines : List Text) (stabilized : Bool)
    (failure : FluidNCFailure p.ucd) (sideEffect : Bool) : PreflightReport p :=
  let lateReset := failure.val.kind = .controllerReset && stabilized
  let snapshot :=
    if lateReset && (lastStatus p lines).isSome then snapshotFromEvidence p lines
    else (safeSnapshot p state.statusLine state.parserLines state.offsetLines sideEffect).1
  ⟨snapshot, state.evidence ++ lines, some failure,
    if lateReset then .stabilized else .freshStabilization⟩

/-- The phase in which the response to a query is read. -/
def responsePhase (stabilized sideEffect : Bool) : SessionObservationPhase :=
  if stabilized then .stabilized
  else if sideEffect then .actionAdmitted
  else .freshStabilization

/-- Ask a query of the first look. -/
def preflightStep (rounds : Nat) (deadline : Reading) (sideEffect : Bool) (q : ControllerQuery)
    (state : PreflightState) : Adapter σ (Except (PreflightReport p) PreflightState) := do
  match ← write p t session (fun _ => .query q) (queryText session.config.lineEnding q) deadline sideEffect with
  | some f => return .error ⟨unavailableSnapshot, state.evidence, some f, .freshStabilization⟩
  | none =>
      let phase := responsePhase state.stabilized sideEffect
      match ← response p t session rounds (q ≠ .status) deadline sideEffect phase with
      | (lines, some f) => return .error (preflightFailed p state lines state.stabilized f sideEffect)
      | (lines, none) =>
          let stabilized := stabilizedBy p q lines state.stabilized
          let phase := if stabilized then .stabilized else phase
          match ← drainPostAck p t session rounds deadline sideEffect phase with
          | (drained, some f) =>
              return .error (preflightFailed p state (lines ++ drained) stabilized f sideEffect)
          | (drained, none) =>
              return .ok { state.answer q (lines ++ drained) with
                evidence := state.evidence ++ (lines ++ drained)
                stabilized := stabilized }

/-- Ask the queries of the first look. -/
def preflightQueries (rounds : Nat) (deadline : Reading) (sideEffect : Bool) :
    List ControllerQuery → PreflightState → Adapter σ (PreflightReport p)
  | [], state =>
      let r := safeSnapshot p state.statusLine state.parserLines state.offsetLines sideEffect
      return ⟨r.1, state.evidence, r.2, .freshStabilization⟩
  | q :: rest, state => do
      match ← preflightStep p t session rounds deadline sideEffect q state with
      | .error report => return report
      | .ok state => preflightQueries rounds deadline sideEffect rest state

/-- Look at the controller. -/
def preflight (rounds : Nat) (timeoutSeconds : ℚ) (sideEffect : Bool) :
    Adapter σ (PreflightReport p) := do
  let deadline ← deadlineAfter p t timeoutSeconds
  preflightQueries p t session rounds deadline sideEffect [.status, .parser, .offsets] {}

/-- The outcome of the first look that a report makes, with the lines of the startup. -/
def preflightFields (r : PreflightReport p) : PreflightOutcome.Fields p :=
  let combined := boundedEvidence (session.startup ++ r.evidence)
  { machineSessionEpoch := session.epoch
    snapshot := r.snapshot
    evidence := combined
    observationPhase := r.phase
    decision := observationDecision p combined r.snapshot.status r.phase
    failure := r.failure }

/-- The outcome of the first look at a session whose startup failed. -/
def startupFields (failure : FluidNCFailure p.ucd) : PreflightOutcome.Fields p where
  machineSessionEpoch := session.epoch
  snapshot := unavailableSnapshot
  evidence := session.startup
  observationPhase := .freshStabilization
  decision := observationDecision p session.startup unavailableStatus .freshStabilization
  failure := some failure

/-- Gather the outcome of the first look at the controller. -/
def initialPreflightReport (rounds : Nat) : Adapter σ (PreflightOutcome.Fields p) :=
  match session.startupFailure with
  | some f => return startupFields p session f
  | none => do
      let report ← preflight p t session rounds session.config.commandTimeoutSeconds false
      return preflightFields p session report

/-- Look at the controller for the first time. -/
def readInitialPreflight (rounds : Nat) : Adapter σ (Except PortError (PreflightOutcome p)) := do
  let fields ← initialPreflightReport p t session rounds
  return acceptIf (PreflightOutcome.Fields.postInit p) fields

end Serial

end DrawingMachine
