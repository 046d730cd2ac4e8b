import DrawingMachine.Persistence.SharedRuns
import DrawingMachine.Base.Assertions
import DrawingMachine.Jobs.Workers

/-!
# The chain of offline steps

How a job is driven: the chain reads the job, does what its state asks for, with the help of
workers, and stores the next state of the job, until it finds the job in a state in which it
stops. What surrounds the chain may answer in any way: the machine commits its own transactions
after any access to the repository, clients ask for the cancellation of the job, the workers
return any outcome, and the store of the artifacts may fail.
-/

namespace DrawingMachine

/-! ### Workers -/

namespace OfflineJobChain

/-- A task for a worker. -/
structure WorkerTask where
  kind : WorkerKind
  mode : Option String := none
  routeMode : Option String := none
  deriving DecidableEq, Repr

/-- The error of a worker, and the canonical text of its details. -/
structure WorkerError where
  payload : ErrorPayload
  detailsText : String
  deriving DecidableEq, Repr

/-- The outcome of a worker: whether it names its own task, how the worker has ended, and the
roles of the artifacts. -/
structure WorkerOutcome where
  own : Bool
  status : WorkerStatus
  error : Option WorkerError
  roles : List String
  deriving DecidableEq, Repr

/-- The outcome of a worker with the artifacts that were promoted. -/
structure WorkerResult where
  outcome : WorkerOutcome
  bundle : Option (List ArtifactRef)
  deriving DecidableEq, Repr

/-- The roles that the artifacts of a successful worker have. -/
def successRoles (kind : WorkerKind) (mode : Option String) : Option (List String) :=
  match kind, mode with
  | .imagePrepare, some "direct" =>
      some ["route_decision", "processed_image_raw", "direct_report", "processed_image",
        "normalization_report"]
  | .imagePrepare, some "normalize_existing" => some ["processed_image", "normalization_report"]
  | .providerLocalComfyui, none =>
      some ["provider_request", "provider_response", "provider_handoff", "processed_image_raw"]
  | .pathsPlan, none =>
      some ["complexity_report", "path_plan", "preview_stroke_svg", "preview_final_svg",
        "planning_report"]
  | .gcodeBuild, none =>
      some ["selected_path_plan", "gcode", "gcode_build_report", "gcode_preview_svg",
        "gcode_preview_report"]
  | .gcodeCheck, none => some ["gcode_static", "send_plan", "readiness"]
  | _, _ => none

/-- The roles that the artifacts of a blocked worker have. -/
def blockedRoles : WorkerKind → Option (List String)
  | .imagePrepare => some []
  | .providerLocalComfyui => some []
  | .pathsPlan => some ["complexity_report"]
  | .gcodeBuild => some []
  | .gcodeCheck => some ["gcode_static", "send_plan", "readiness"]
  | _ => none

/-- The roles that the artifacts of a worker have to have. -/
def requiredRoles (task : WorkerTask) : WorkerStatus → Option (List String)
  | .succeeded =>
      if task.kind = .imagePrepare ∧ task.mode = some "direct" ∧ task.routeMode = some "auto" then
        some ["route_decision"]
      else
        successRoles task.kind (if task.kind = .imagePrepare then task.mode else none)
  | .blocked => blockedRoles task.kind
  | _ => some []

/-- A worker has failed with an error of the chain. -/
def failure (code : String) (category : ErrorCategory) (message : String)
    (details : List (String × String)) (detailsText : String) : WorkerOutcome where
  own := true
  status := .failed
  error := some ⟨⟨code, category, message, false, details⟩, detailsText⟩
  roles := []

/-- The outcome in place of one that names another task. -/
def staleOutcome (requestId : String) : WorkerOutcome :=
  failure "STALE_WORKER_OUTCOME" .internal
    "worker outcome identity did not match its immutable task"
    [("request_id", requestId)] ("\x7b\"request_id\":\"" ++ requestId ++ "\"\x7d")

/-- The outcome in place of one with other artifacts than it has to have. -/
def artifactContractFailure : WorkerOutcome :=
  failure "WORKER_ARTIFACT_SET_INVALID" .internal
    "worker artifact set did not match its exact contract" [] "\x7b\x7d"

/-- The outcome in place of one whose artifacts do not have the content they have to have. -/
def artifactContentFailure (cause : ErrorPayload) : WorkerOutcome :=
  failure "WORKER_ARTIFACT_CONTENT_INVALID" .validation
    "worker JSON artifact failed its production content contract"
    [("cause_code", cause.code)] ("\x7b\"cause_code\":\"" ++ cause.code ++ "\"\x7d")

/-- The code of a crash. -/
def workerCrashCode : String := "WORKER_PROCESS_CRASHED"

/-- A worker is started again after its first crash, unless it uses the provider. -/
def retries (kind : WorkerKind) (outcome : WorkerOutcome) (first : Bool) : Bool :=
  outcome.status = .failed && outcome.error.any (fun e => e.payload.code = workerCrashCode) &&
    kind ≠ .providerLocalComfyui && first

/-! ### What surrounds the chain -/

/-- How an image is prepared. -/
inductive RouteMode where
  | auto | direct | imageEdit
  deriving DecidableEq, Repr

/-- The route that a worker has decided on. -/
inductive RouteDecision where
  | direct | imageEdit
  /-- The decision is not valid. -/
  | invalid
  deriving DecidableEq, Repr

/-- What surrounds the chain. `none` is an exception. -/
structure Surroundings (σ : Type) where
  /-- What the machine commits after an access to the repository, before the next one. -/
  machine : σ → List Transaction × σ
  cancelRequested : String → σ → Bool × σ
  cancellationIdentity : String → σ → (String × RequesterIdentity) × σ
  freshId : σ → String × σ
  commit : σ → Commit × σ
  routeMode : JobRecord → Option RouteMode
  importFile : JobRecord → String → σ → Option (List ArtifactRef) × σ
  rehydrate : JobRecord → σ → Option Unit × σ
  submitTask : JobRecord → WorkerTask → σ → Option Unit × σ
  wait : JobRecord → WorkerTask → σ → WorkerOutcome × σ
  /-- The checks of the content of the artifacts: passed, or failed with an error. -/
  validateArtifacts : WorkerTask → WorkerOutcome → σ → Option (Except ErrorPayload Unit) × σ
  promote : WorkerTask → WorkerOutcome → σ → Option (List ArtifactRef) × σ
  discardStaging : σ → Option Unit × σ
  gcodeArtifact : JobRecord → σ → Option Unit × σ
  validatedRoute : JobRecord → List ArtifactRef → σ → Option RouteDecision × σ
  readJson : String → σ → Option String × σ
  planningParameters : String
  writeProjection : JobRecord → σ → Option Unit × σ
  publish : JobRecord → σ → Option Unit × σ

/-- The shared database, and what surrounds the chain. -/
structure Chain (σ : Type) where
  db : SharedDatabase
  around : σ

/-- What is seen of the driving of a job. -/
inductive DriveEvent where
  /-- A call of `advance` returns: the job it has read, the one it returns, and the stored one. -/
  | advanced (read returned : JobRecord) (stored : Option JobRecord.Fields)
  | raised (error : StoreError)
  | exception (source : String)

/-- A program of the chain. -/
abbrev Program (σ α : Type) := Interaction (Chain σ) DriveEvent α

section

variable {σ α : Type} (w : Surroundings σ)

/-- Ask what surrounds the chain. -/
def ask (f : σ → α × σ) : Program σ α :=
  Interaction.perform fun c => ((f c.around).1, { c with around := (f c.around).2 })

/-- Ask what surrounds the chain for something that may raise an exception. -/
def require (source : String) (f : σ → Option α × σ) : Program σ α :=
  Interaction.attempt (.exception source) fun c =>
    ((f c.around).1, { c with around := (f c.around).2 })

/-- The machine commits. -/
def machineTurn : Program σ Unit :=
  Interaction.perform fun c =>
    ((), { db :=
             { c.db with
               tables := (w.machine c.around).1.foldl (fun db tx => tx.run db) c.db.tables }
           around := (w.machine c.around).2 })

/-- Read the database. -/
def reading (f : SharedDatabase → α) : Program σ α := do
  let a ← Interaction.perform fun c => (f c.db, c)
  machineTurn w
  return a

/-- A transaction of the chain. -/
def commitTo (f : SharedDatabase → Except StoreError (α × SharedDatabase)) : Program σ α :=
  fun c =>
    match f c.db with
    | .ok (a, db) => .done [] a { c with db := db }
    | .error e => .escaped [.raised e]

/-- A value, or an error of the program. -/
def checked (x : Except ErrorPayload α) : Program σ α :=
  match x with
  | .ok a => pure a
  | .error e => Interaction.escape (.raised (.payload e))

/-! ### Jobs -/

/-- The job does not exist. -/
def jobNotFound : ErrorPayload where
  code := "JOB_NOT_FOUND"
  category := .service
  message := "job does not exist"
  retryable := false
  details := []

/-- Read a job. -/
def get (jobId : String) : Program σ JobRecord := do
  match ← reading w fun db => db.tables.jobs.get? jobId with
  | none => Interaction.escape (.raised (.payload jobNotFound))
  | some row => checked (JobRecord.build row)

/-- The stored artifacts of a job. -/
def artifactsOf (jobId : String) (db : SharedDatabase) : List ArtifactRef :=
  (db.artifacts.rows.filter fun a => a.jobId = jobId).map JobArtifact.artifact

/-- Change the state of a job, and write its projection. -/
def change (job : JobRecord) (state : JobState) (c : Change) : Program σ JobRecord := do
  let commit ← ask w.commit
  let updated ← commitTo fun db => transition db job state c { commit with allowed := true }
  machineTurn w
  require "write_projection" (w.writeProjection updated)
  return updated

/-- Fail a job. -/
def fail (job : JobRecord) (code message : String) : Program σ JobRecord := do
  let requestId := "orchestration-failure-" ++ (← ask w.freshId)
  change w job .failed {
    eventType := "job.orchestration_failed"
    requestId := some requestId
    requester := .service
    error := some ⟨⟨code, .internal, message, false, []⟩, some requestId, some job.val.jobId⟩ }

/-- Cancel a job. -/
def cancel (jobId requestId : String) (requester : RequesterIdentity) : Program σ JobRecord := do
  let job ← get w jobId
  if job.val.state ∈ [JobState.cancelled, .failed, .completed] then
    return job
  else
    change w job .cancelled { eventType := "job.cancelled", requestId := some requestId, requester }

/-! ### Workers -/

/-- What is made of the outcome of an attempt: a result, or nothing when the worker is started
again. -/
def resultOf (task : WorkerTask) (outcome : WorkerOutcome) (first : Bool) :
    Program σ (Option WorkerResult) :=
  if outcome.own = false then do
    let id ← ask w.freshId
    return some ⟨staleOutcome ("stale-worker-" ++ id), none⟩
  else if retries task.kind outcome first then
    return none
  else
    match requiredRoles task outcome.status with
    | none => Interaction.escape (.exception "required_roles")
    | some required =>
        if ¬ (outcome.roles ⊆ required ∧ required ⊆ outcome.roles) then
          return some ⟨artifactContractFailure, none⟩
        else do
          match ← require "validate" (w.validateArtifacts task outcome) with
          | .error e => return some ⟨artifactContentFailure e, none⟩
          | .ok () =>
              if required = [] then
                return some ⟨outcome, none⟩
              else
                let bundle ← require "promote" (w.promote task outcome)
                return some ⟨outcome, some bundle⟩

/-- One attempt of a task. -/
def attemptTask (job : JobRecord) (task : WorkerTask) (first : Bool) :
    Program σ (Option WorkerResult) := do
  require "submit" (w.submitTask job task)
  let outcome ← ask (w.wait job task)
  let result ← resultOf w task outcome first
  require "discard_staging" w.discardStaging
  return result

/-- Run a task. -/
def execute (job : JobRecord) (task : WorkerTask) : Program σ WorkerResult := do
  match ← attemptTask w job task true with
  | some result => return result
  | none =>
      match ← attemptTask w job task false with
      | some result => return result
      | none => Interaction.escape (.exception "worker retry loop is exhaustive")

/-- Store what a worker has found. -/
def finishWorker (job : JobRecord) (result : WorkerResult) (successState : JobState)
    (eventType : String) (extraArtifacts : List ArtifactRef) : Program σ JobRecord :=
  let artifacts := extraArtifacts ++ result.bundle.getD []
  match result.outcome.status, result.outcome.error with
  | .succeeded, _ =>
      change w job successState { eventType, requestId := none, requester := .service, artifacts }
  | .blocked, some error => do
      let blocker ← checked (acceptIf JobBlocker.Fields.postInit
        ⟨error.payload.code, error.payload.category, error.payload.message, error.detailsText⟩)
      change w job .blocked
        { eventType, requestId := none, requester := .service, artifacts, blocker := some blocker }
  | .cancelled, _ => do
      let identity ← ask (w.cancellationIdentity job.val.jobId)
      change w job .cancelled
        { eventType := "job.cancelled", requestId := some identity.1, requester := identity.2 }
  | .failed, some error => do
      let requestId := "worker-failure-" ++ (← ask w.freshId)
      change w job .failed {
        eventType := "job.worker_failed"
        requestId := some requestId
        requester := .service
        error := some ⟨{ error.payload with retryable := false }, some requestId,
          some job.val.jobId⟩ }
  | _, none => Interaction.escape (.exception "assert outcome.error is not None")

/-- The artifacts of a result, which a successful one has. -/
def bundleOf (result : WorkerResult) : Program σ (List ArtifactRef) :=
  match result.bundle with
  | some bundle => pure bundle
  | none => Interaction.escape (.exception "assert result.bundle is not None")

/-! ### The steps of a drawing -/

/-- Wait for the review of the processed image. -/
def awaitReview (job : JobRecord) (artifacts : List ArtifactRef) : Program σ JobRecord := do
  let blocker ← checked (acceptIf JobBlocker.Fields.postInit
    ⟨"REVIEW_REQUIRED", .validation, "processed image review is required", "\x7b\x7d"⟩)
  change w job .blocked {
    eventType := "job.review_required"
    requestId := none
    requester := .service
    artifacts
    blocker := some blocker }

/-- Prepare the image with the help of the provider. -/
def prepareImageEdit (job : JobRecord) (prefixArtifacts : List ArtifactRef) :
    Program σ JobRecord := do
  let provider ← execute w job ⟨.providerLocalComfyui, none, none⟩
  if provider.outcome.status ≠ .succeeded then
    finishWorker w job provider .blocked "job.provider_finished" prefixArtifacts
  else do
    let provided ← bundleOf provider
    let normalize ← execute w job ⟨.imagePrepare, some "normalize_existing", none⟩
    if normalize.outcome.status ≠ .succeeded then
      finishWorker w job normalize .blocked "job.image_prepared" (prefixArtifacts ++ provided)
    else do
      let normalized ← bundleOf normalize
      awaitReview w job (prefixArtifacts ++ provided ++ normalized)

/-- Rename the route decision of the second worker. -/
def directRole (a : ArtifactRef) : ArtifactRef :=
  if h : a.val.role = "route_decision" then
    ⟨{ a.val with role := "direct_route_decision" }, by
      have ha := a.property
      simp only [ArtifactRef.Fields.postInit, Except.unit_bind_eq_ok_iff,
        validateString_eq_ok_iff] at ha ⊢
      exact ⟨by decide, ha.2⟩⟩
  else a

/-- Prepare the image. -/
def prepareImage (job : JobRecord) : Program σ JobRecord := do
  match w.routeMode job with
  | none => Interaction.escape (.exception "route_mode")
  | some .imageEdit => prepareImageEdit w job []
  | some mode => do
      let routeMode := if mode = .auto then "auto" else "direct"
      let prepared ← execute w job ⟨.imagePrepare, some "direct", some routeMode⟩
      if prepared.outcome.status ≠ .succeeded then
        finishWorker w job prepared .blocked "job.image_prepared" []
      else do
        let promoted ← bundleOf prepared
        if mode ≠ .auto then
          awaitReview w job promoted
        else do
          match ← require "route" (w.validatedRoute job promoted) with
          | .invalid =>
              fail w job "ROUTE_DECISION_INVALID" "promoted route decision is invalid"
          | .imageEdit => prepareImageEdit w job promoted
          | .direct => do
              let direct ← execute w job ⟨.imagePrepare, some "direct", some "direct"⟩
              if direct.outcome.status ≠ .succeeded then
                finishWorker w job direct .blocked "job.image_prepared" promoted
              else do
                let directed ← bundleOf direct
                awaitReview w job (promoted ++ directed.map directRole)

/-- What is ready to run. -/
def readySnapshot (job : JobRecord) (artifacts : List ArtifactRef)
    (staticResult sendPlan readiness : String) : Program σ ReadyToRunSnapshot :=
  match artifacts.reverse.find? fun a => a.val.role = "gcode" with
  | none => Interaction.escape (.exception "by_role")
  | some gcode =>
      checked (acceptIf ReadyToRunSnapshot.Fields.postInit {
        schemaVersion := 1
        jobId := job.val.jobId
        jobRevision := job.val.revision + 1
        gcode := gcode
        artifacts := artifacts.filter fun a => a.val.role ≠ "gcode"
        staticResult := staticResult
        sendPlan := sendPlan
        readiness := readiness
        config := job.val.config
        planningParameters := w.planningParameters
        applicationVersion := version })

/-- Check the program of a drawing. -/
def validateGcode (job : JobRecord) : Program σ JobRecord := do
  require "gcode" (w.gcodeArtifact job)
  let result ← execute w job ⟨.gcodeCheck, none, none⟩
  if result.outcome.status ≠ .succeeded then
    finishWorker w job result .readyToRun "job.ready_to_run" []
  else do
    let bundle ← bundleOf result
    let stored ← reading w (artifactsOf job.val.jobId)
    let staticResult ← require "read_json" (w.readJson "gcode_static")
    let sendPlan ← require "read_json" (w.readJson "send_plan")
    let readiness ← require "read_json" (w.readJson "readiness")
    let snapshot ← readySnapshot w job (stored ++ bundle) staticResult sendPlan readiness
    change w job .readyToRun {
      eventType := "job.ready_to_run"
      requestId := none
      requester := .service
      artifacts := bundle
      readySnapshot := some snapshot }

/-- Take the input of a job into the store of the artifacts, when it is not there yet. -/
def takeInput (job : JobRecord) (role : String) : Program σ (List ArtifactRef) := do
  let stored ← reading w (artifactsOf job.val.jobId)
  if stored.any fun a => a.val.role = role then do
    require "rehydrate" (w.rehydrate job)
    return []
  else
    require "import_file" (w.importFile job role)

/-- The next step of the check of a program. -/
def advanceGcodeCheck (job : JobRecord) : Program σ JobRecord :=
  match job.val.state with
  | .queued => do
      let artifacts ← takeInput w job "gcode"
      change w job .validatingGcode
        { eventType := "gcode_check.validating", requestId := none, requester := .service,
          artifacts }
  | .validatingGcode => do
      require "gcode" (w.gcodeArtifact job)
      let result ← execute w job ⟨.gcodeCheck, none, none⟩
      finishWorker w job result .completed "gcode_check.completed" []
  | _ => pure job

/-- The next step of a drawing. -/
def advanceOffline (job : JobRecord) : Program σ JobRecord :=
  match job.val.state with
  | .queued => do
      let artifacts ← takeInput w job "input_image"
      change w job .preparingImage
        { eventType := "job.image_preparing", requestId := none, requester := .service, artifacts }
  | .preparingImage => prepareImage w job
  | .imageReady =>
      change w job .planningPaths
        { eventType := "job.path_planning", requestId := none, requester := .service }
  | .planningPaths => do
      let result ← execute w job ⟨.pathsPlan, none, none⟩
      finishWorker w job result .pathPlanReady "job.path_plan_ready" []
  | .pathPlanReady =>
      change w job .buildingGcode
        { eventType := "job.gcode_building", requestId := none, requester := .service }
  | .buildingGcode => do
      let result ← execute w job ⟨.gcodeBuild, none, none⟩
      finishWorker w job result .validatingGcode "job.gcode_validating" []
  | .validatingGcode => validateGcode w job
  | _ => pure job

/-- The next step of a job that was read. -/
def advanceFrom (job : JobRecord) : Program σ JobRecord := do
  if ← ask (w.cancelRequested job.val.jobId) then do
    let identity ← ask (w.cancellationIdentity job.val.jobId)
    cancel w job.val.jobId identity.1 identity.2
  else if job.val.kind = .gcodeCheck then
    advanceGcodeCheck w job
  else
    advanceOffline w job

/-- The next step of a job. -/
def advance (jobId : String) : Program σ JobRecord := do
  let job ← get w jobId
  let returned ← advanceFrom w job
  fun c => .done [.advanced job returned (c.db.tables.jobs.get? jobId)] returned c

/-! ### The loops -/

/-- The states in which `run_to_intervention_or_terminal` stops, besides `BLOCKED`. -/
def terminal : List JobState := [.readyToRun, .failed, .cancelled, .completed]

/-- A round of the loop of `run_to_intervention_or_terminal`. -/
def runRound (jobId : String) (job : JobRecord) : Program σ (JobRecord ⊕ JobRecord) :=
  if job.val.state ∉ terminal ∧ job.val.state ≠ .blocked then do
    let job ← advance w jobId
    return .inl job
  else
    return .inr job

/-- Drive a job until the chain stops: at most so many rounds. -/
def runToInterventionOrTerminal (rounds : Nat) (jobId : String) : Program σ JobRecord := do
  let job ← get w jobId
  Interaction.iterate (runRound w jobId) rounds job

/-- The states in which the coordinator stops. -/
def driveTerminal : List JobState := [.readyToRun, .blocked, .failed, .cancelled, .completed]

/-- A round of the loop of the coordinator, which publishes the job after every step. -/
def driveRound (current : JobRecord) : Program σ (JobRecord ⊕ JobRecord) :=
  if current.val.state ∉ driveTerminal then do
    let current ← advance w current.val.jobId
    machineTurn w
    require "publish" (w.publish current)
    return .inl current
  else
    return .inr current

/-- Drive a job as the coordinator does. -/
def drive (rounds : Nat) (job : JobRecord) : Program σ JobRecord :=
  Interaction.iterate (driveRound w) rounds job

end

end OfflineJobChain

end DrawingMachine
