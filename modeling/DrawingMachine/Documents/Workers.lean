import DrawingMachine.Documents.Contract
import DrawingMachine.Jobs.Workers

/-!
# The messages of workers

The records of `ports/workers.py` with the JSON they carry: the task that a worker is given and
the outcome it comes back with. The payload of a task has to fit the schema of the kind of
worker, which names every key that may occur in it.
-/

namespace DrawingMachine.Document.Workers

open PyValue

variable {φ : Type} {α : Type}

/-! ### The validators, under the names of the source -/

/-- The entries of a JSON object. -/
abbrev object (value : PyValue φ) (context : PyStr) : Decoder (List (PyStr × PyValue φ)) :=
  workers.object value context

/-- The check of the fields of an object. -/
abbrev exactFields (value : List (PyStr × PyValue φ)) (expected : List String) (context : PyStr) :
    Decoder Unit :=
  workers.requireExactFields value expected context

/-- A text that is not empty. -/
abbrev string (value : PyValue φ) (field : PyStr) : Decoder String := workers.string value field

/-- A text that may be absent. -/
abbrev nullableString (value : PyValue φ) (field : PyStr) : Decoder (Option String) :=
  Contract.nullable (fun value => string value field) value

/-- An integer with a lower bound. -/
abbrev integer (value : PyValue φ) (field : PyStr) (minimum : ℕ := 0) : Decoder ℕ :=
  workers.integer value field minimum

/-- A truth value. -/
abbrev boolean (value : PyValue φ) (field : PyStr) : Decoder Bool := workers.boolean value field

/-- The supported schema version. -/
abbrev schema (value : PyValue φ) (field : PyStr) : Decoder ℕ := workers.schemaVersion value field

/-- A SHA-256 digest. -/
abbrev digest (value : PyValue φ) (field : PyStr) : Decoder String := workers.digest value field

/-- A relative path. -/
abbrev relativePath (value : PyValue φ) (field : PyStr) : Decoder String :=
  workers.relative value field

/-- A JSON object that can be stored. -/
abbrev freezeObject [PyFinite φ] (value : PyValue φ) (context : PyStr) : Decoder (PyValue φ) :=
  workers.freezeObject value context

/-- The member of an enumeration. -/
abbrev enum (members : List α) (name : α → String) (value : PyValue φ) (field : PyStr) :
    Decoder α :=
  workers.enumeration members name value field

/-- Raise an error that names no field, when `bad` holds. -/
abbrev invalidIf (bad : Prop) [Decidable bad] (message : PyStr) : Decoder Unit :=
  workers.invalidIf bad message

/-- A character that an identifier begins with. -/
def Alphanumeric (c : Char) : Prop :=
  ('A' ≤ c ∧ c ≤ 'Z') ∨ ('a' ≤ c ∧ c ≤ 'z') ∨ ('0' ≤ c ∧ c ≤ '9')

instance (c : Char) : Decidable (Alphanumeric c) := inferInstanceAs (Decidable (_ ∨ _))

/-- A safe ASCII identifier. -/
def Identifier (text : String) : Prop :=
  (∃ c ∈ text.toList.head?, Alphanumeric c) ∧
    ∀ c ∈ text.toList, Alphanumeric c ∨ c = '.' ∨ c = '_' ∨ c = '-'

-- There are finitely many characters, and they are not to be gone through.
instance (text : String) : Decidable (Identifier text) :=
  @instDecidableAnd _ _ (Option.decidableExistsMem text.toList.head?) inferInstance

/-- An identifier. -/
def identifier (value : PyValue φ) (field : PyStr) : Decoder String := do
  let text ← string value field
  if ¬ Identifier text then
    workers.invalid field " must be a safe ASCII identifier" []
  else
    return text

/-- An identifier that may be absent. -/
def nullableIdentifier (value : PyValue φ) (field : PyStr) : Decoder (Option String) :=
  Contract.nullable (fun value => identifier value field) value

/-- What comes after the root of an absolute path, which is one slash or two. -/
def afterRoot : List Char → Option (List Char)
  | '/' :: '/' :: rest => some rest
  | '/' :: rest => some rest
  | _ => none

/-- An absolute path in its canonical form. -/
def AbsolutePath (path : String) : Prop :=
  Char.ofNat 0 ∉ path.toList ∧
    ∃ rest ∈ afterRoot path.toList, rest = [] ∨ Contract.CanonicalParts rest

instance (path : String) : Decidable (AbsolutePath path) := inferInstanceAs (Decidable (_ ∧ _))

/-- An absolute path. -/
def absolutePath (value : PyValue φ) (field : PyStr) : Decoder String := do
  let text ← string value field
  if ¬ AbsolutePath text then
    workers.invalid field " must be a canonical absolute path" []
  else
    return text

/-! ### Schemas of payloads -/

/-- The keys that an object may have: those whose values contain no object, and those whose
values have a schema themselves. -/
inductive PayloadSchema where
  | mk (leafFields : List String) (objectFields : List (String × PayloadSchema))

/-- The keys whose values have a schema. -/
def PayloadSchema.objectFields : PayloadSchema → List (String × PayloadSchema)
  | .mk _ objectFields => objectFields

/-- The keys that an object may have. -/
def PayloadSchema.fields : PayloadSchema → List String
  | .mk leafFields objectFields => leafFields ++ objectFields.map Prod.fst

/-- The schema of the values under a key. -/
def PayloadSchema.child (schema : PayloadSchema) (key : PyStr) : Option PayloadSchema :=
  (schema.objectFields.find? fun field => PyStr.ofString field.1 = key).map Prod.snd

/-- The keys of the planning values of a profile. -/
def planningProfileFields : List String :=
  ["canvas_width_mm", "canvas_height_mm", "pen_width_mm", "min_gap_mm", "threshold", "invert",
    "min_component_area_px", "simplify_tolerance_mm", "min_path_length_mm",
    "drop_short_stroke_mm", "merge_endpoint_distance_mm", "merge_angle_deg",
    "dedupe_short_path_length_mm", "dedupe_distance_mm", "dedupe_angle_deg",
    "dedupe_overlap_ratio", "hatch_spacing_mm", "hatch_min_run_mm", "fill_min_thickness_mm"]

/-- The keys of the G-code values of a machine profile. -/
def machineGcodeFields : List String :=
  ["hardware_canvas_width_mm", "hardware_canvas_height_mm", "machine_width_mm",
    "machine_height_mm", "paper_center_x", "paper_center_y", "pen_up_z", "pen_down_z",
    "feed_travel", "feed_draw", "feed_pen_down", "feed_pen_up", "max_feed", "work_coordinate",
    "align_mode", "mirror_y", "safe_start", "path_mode"]

/-- The keys of the limits of complexity. -/
def complexityLimitFields : List String :=
  ["soft_component_count", "soft_skeleton_pixels", "soft_boundary_pixels",
    "soft_transitions_total", "hard_component_count", "hard_skeleton_pixels",
    "hard_boundary_pixels", "hard_transitions_total", "threshold", "invert",
    "min_component_area_px"]

/-- The keys of the profile for removing duplicates. -/
def dedupeFields : List String :=
  ["dedupe_short_path_length_mm", "dedupe_distance_mm", "dedupe_angle_deg",
    "dedupe_overlap_ratio"]

/-- The schema of an assessment of an image. -/
def semanticAssessmentSchema : PayloadSchema :=
  .mk ["semantic_style_score", "semantic_score_source", "semantic_rationale",
    "semantic_blockers"] []

/-- The schema of how an image is normalized. -/
def normalizationSchema : PayloadSchema :=
  .mk ["threshold", "invert", "min_component_area_px", "median_filter_size",
    "color_delta_threshold", "remove_small_components_px"] []

/-- The schema of preparing an image directly. -/
def imageDirectSchema : PayloadSchema :=
  .mk ["mode", "source_name", "route_mode"]
    [("semantic_assessment", semanticAssessmentSchema), ("normalization", normalizationSchema)]

/-- The schema of normalizing an existing image. -/
def imageNormalizeSchema : PayloadSchema :=
  .mk ["mode", "source_name"] [("normalization", normalizationSchema)]

/-- The schema of the nodes of a workflow. -/
def providerWorkflowNodesSchema : PayloadSchema :=
  .mk ["load_image", "prompt", "sampler", "save_image", "scale"] []

/-- The schema of a sampler. -/
def providerSamplerSchema : PayloadSchema := .mk ["steps", "cfg", "denoise"] []

/-- The schema of the profile of a provider, without its version. -/
def providerProfileBodySchema : PayloadSchema :=
  .mk ["name", "endpoint", "workflow_template", "model_family", "scale_to_length",
    "timeout_seconds", "poll_interval_seconds", "free_after_run",
    "live_execution_requires_execute_flag"]
    [("workflow_nodes", providerWorkflowNodesSchema), ("sampler_defaults", providerSamplerSchema)]

/-- The schema of the profile of a provider. -/
def providerProfileSchema : PayloadSchema :=
  .mk ["schema_version"] [("profile", providerProfileBodySchema)]

/-- The schema of a request to a provider. -/
def providerSchema : PayloadSchema :=
  .mk ["prompt", "provider_config_path"] [("provider_profile", providerProfileSchema)]

/-- The schema of planning values. -/
def planningValuesSchema : PayloadSchema := .mk planningProfileFields []

/-- The schema of a planning profile, without its version. -/
def planningProfileBodySchema : PayloadSchema := .mk ["name"] [("planning", planningValuesSchema)]

/-- The schema of a planning profile. -/
def planningProfileSchema : PayloadSchema :=
  .mk ["schema_version"] [("profile", planningProfileBodySchema)]

/-- The schema of the limits of complexity. -/
def complexityLimitSchema : PayloadSchema := .mk complexityLimitFields []

/-- The schema of the profile for removing duplicates. -/
def dedupeSchema : PayloadSchema := .mk dedupeFields []

/-- The schema of planning paths. -/
def planningSchema : PayloadSchema :=
  .mk [] [("planning_profile", planningProfileSchema), ("complexity_limits", complexityLimitSchema),
    ("base_dedupe_profile", dedupeSchema)]

/-- The schema of the G-code values of a machine profile. -/
def machineGcodeSchema : PayloadSchema := .mk machineGcodeFields []

/-- The schema of a machine profile, without its version. -/
def machineProfileBodySchema : PayloadSchema :=
  .mk ["name"] [("planning", planningValuesSchema), ("gcode", machineGcodeSchema)]

/-- The schema of a machine profile. -/
def machineProfileSchema : PayloadSchema :=
  .mk ["schema_version"] [("profile", machineProfileBodySchema)]

/-- The schema of building G-code. -/
def gcodeBuildSchema : PayloadSchema := .mk [] [("machine_build_profile", machineProfileSchema)]

/-- The schema of checking G-code. -/
def gcodeCheckSchema : PayloadSchema :=
  .mk ["expected_gcode_sha256"] [("machine_build_profile", machineProfileSchema)]

/-- The schema of the nested part of a test. -/
def testNestedSchema : PayloadSchema :=
  .mk ["enabled", "pretty_print", "bounds_normalized", "redistribute_paths"] []

/-- The schema of a test. -/
def testSchema : PayloadSchema := .mk ["mode"] [("nested", testNestedSchema)]

/-- Raise the error of fields that a payload must not have. -/
def payloadFieldError (context : PyStr) (fields : List PyStr) : Decoder α :=
  workers.refuse (context ++ PyStr.ofString
    " contains forbidden worker fields or unknown worker payload fields: " ++
    Contract.joined (Contract.sortedNames fields)) [("field", .str context)]

mutual

/-- The check that a leaf of a payload contains no object that has keys. -/
def rejectObjectsInPayloadLeaf (value : PyValue φ) (context : PyStr) : Decoder Unit :=
  match value with
  | .obj [] => .ok ()
  | .obj (entry :: entries) => payloadFieldError context (entry.1 :: entries.map Prod.fst)
  | .arr items => rejectObjectsInPayloadItems items context
  | _ => .ok ()

/-- The check of the items of an array. -/
def rejectObjectsInPayloadItems (items : List (PyValue φ)) (context : PyStr) : Decoder Unit :=
  match items with
  | [] => .ok ()
  | item :: items => do
      rejectObjectsInPayloadLeaf item (context ++ PyStr.ofString "[]")
      rejectObjectsInPayloadItems items context

end

mutual

/-- The check that a payload fits a schema. -/
def validatePayloadSchema (value : PyValue φ) (schema : PayloadSchema) (context : PyStr) :
    Decoder Unit :=
  match value with
  | .obj entries =>
      let unknown :=
        (entries.map Prod.fst).filter fun key => key ∉ schema.fields.map PyStr.ofString
      if unknown ≠ [] then
        payloadFieldError context unknown
      else
        validatePayloadEntries entries schema context
  | .arr items => validatePayloadItems items schema context
  | _ => .ok ()

/-- The check of the items of an array. -/
def validatePayloadItems (items : List (PyValue φ)) (schema : PayloadSchema) (context : PyStr) :
    Decoder Unit :=
  match items with
  | [] => .ok ()
  | item :: items => do
      validatePayloadSchema item schema (context ++ PyStr.ofString "[]")
      validatePayloadItems items schema context

/-- The check of the values of an object, each against the schema of its key. -/
def validatePayloadEntries (entries : List (PyStr × PyValue φ)) (schema : PayloadSchema)
    (context : PyStr) : Decoder Unit :=
  match entries with
  | [] => .ok ()
  | (key, item) :: entries => do
      match schema.child key with
      | none => rejectObjectsInPayloadLeaf item (context ++ PyStr.ofString "." ++ key)
      | some child => validatePayloadSchema item child (context ++ PyStr.ofString "." ++ key)
      validatePayloadEntries entries schema context

end

/-- The entries of a JSON object, and none of another value. -/
def entriesOf : PyValue φ → List (PyStr × PyValue φ)
  | .obj entries => entries
  | _ => []

/-- The check that a payload has exactly the expected fields. -/
def requirePayloadFields (payload : PyValue φ) (expected : List String) (context : PyStr) :
    Decoder Unit :=
  let actual := (entriesOf payload).map Prod.fst
  let unknown := actual.filter fun key => key ∉ expected.map PyStr.ofString
  let missing := (expected.map PyStr.ofString).filter fun key => key ∉ actual
  if unknown ≠ [] then
    payloadFieldError context unknown
  else if missing ≠ [] then
    workers.refuse (context ++ PyStr.ofString " has missing worker payload fields: " ++
      Contract.joined (Contract.sortedNames missing)) [("field", .str context)]
  else
    .ok ()

/-- The check that the payload of a test has a mode, and nothing else but a nested part. -/
def requireTestFields (payload : PyValue φ) (context : PyStr) : Decoder Unit :=
  let actual := (entriesOf payload).map Prod.fst
  let unknown := actual.filter fun key => key ∉ ["mode", "nested"].map PyStr.ofString
  if PyStr.ofString "mode" ∉ actual then
    workers.refuse (context ++ PyStr.ofString " has missing worker payload fields: mode")
      [("field", .str context)]
  else if unknown ≠ [] then
    payloadFieldError context unknown
  else
    .ok ()

/-- The mode of a payload. -/
def payloadMode (payload : PyValue φ) : PyValue φ :=
  (lookup (entriesOf payload) "mode").getD .null

/-- The fields that a payload has to have exactly. -/
def exactPayloadFields : WorkerKind → List String
  | .providerLocalComfyui => ["prompt", "provider_profile", "provider_config_path"]
  | .pathsPlan => ["planning_profile", "complexity_limits", "base_dedupe_profile"]
  | .gcodeBuild => ["machine_build_profile"]
  | .gcodeCheck => ["machine_build_profile", "expected_gcode_sha256"]
  | _ => []

/-- The schema of the payloads of a kind, where it does not depend on the mode. -/
def payloadSchema : WorkerKind → PayloadSchema
  | .providerLocalComfyui => providerSchema
  | .pathsPlan => planningSchema
  | .gcodeBuild => gcodeBuildSchema
  | .gcodeCheck => gcodeCheckSchema
  | _ => testSchema

/-- The check of the payload of a task. -/
def validateWorkerPayload (kind : WorkerKind) (payload : PyValue φ) : Decoder Unit := do
  if kind = .imagePrepare then
    let mode ← string (payloadMode payload) "worker_task.payload.mode"
    if mode = "direct" then
      validatePayloadSchema payload imageDirectSchema "worker_task.payload"
      requirePayloadFields payload
        ["mode", "source_name", "route_mode", "semantic_assessment", "normalization"]
        "worker_task.payload"
    else if mode = "normalize_existing" then
      validatePayloadSchema payload imageNormalizeSchema "worker_task.payload"
      requirePayloadFields payload ["mode", "source_name", "normalization"] "worker_task.payload"
    else
      workers.refuse "worker_task.payload.mode has an invalid image preparation mode"
        [("field", .str "worker_task.payload.mode")]
  else
    validatePayloadSchema payload (payloadSchema kind) "worker_task.payload"
    if kind = .testEcho ∨ kind = .testHang then
      check (string (payloadMode payload) "worker_task.payload.mode")
      requireTestFields payload "worker_task.payload"
    else
      requirePayloadFields payload (exactPayloadFields kind) "worker_task.payload"

/-! ### Tasks -/

/-- The fields of an input of a task. -/
structure WorkerInputArtifact.Fields where
  role : String
  absolutePath : String
  sha256 : String
  sizeBytes : ℕ
  mediaType : String
  deriving DecidableEq

/-- The checks of the constructor of an input. -/
def WorkerInputArtifact.Fields.postInit (artifact : WorkerInputArtifact.Fields) : Decoder Unit := do
  check (string (textField artifact.role) "worker_input.role")
  check (Workers.absolutePath (textField artifact.absolutePath) "worker_input.absolute_path")
  check (digest (textField artifact.sha256) "worker_input.sha256")
  check (integer (intField artifact.sizeBytes) "worker_input.size_bytes")
  check (string (textField artifact.mediaType) "worker_input.media_type")

/-- An input of a task. -/
def WorkerInputArtifact :=
  { artifact : WorkerInputArtifact.Fields // artifact.postInit = .ok () }

/-- The names of the fields of an input. -/
def inputFields : List String := ["role", "absolute_path", "sha256", "size_bytes", "media_type"]

/-- The document of an input. -/
def WorkerInputArtifact.toJson (artifact : WorkerInputArtifact) : PyValue φ :=
  record
    [("role", .str artifact.val.role),
      ("absolute_path", .str artifact.val.absolutePath),
      ("sha256", .str artifact.val.sha256),
      ("size_bytes", .int artifact.val.sizeBytes),
      ("media_type", .str artifact.val.mediaType)]

/-- An input, from its document. -/
def WorkerInputArtifact.fromJson (payload : PyValue φ) : Decoder WorkerInputArtifact := do
  let data ← object payload "worker input artifact"
  exactFields data inputFields "worker input artifact"
  acceptIf WorkerInputArtifact.Fields.postInit
    { role := ← string (valueAt data "role") "worker_input.role"
      absolutePath := ← absolutePath (valueAt data "absolute_path") "worker_input.absolute_path"
      sha256 := ← digest (valueAt data "sha256") "worker_input.sha256"
      sizeBytes := ← integer (valueAt data "size_bytes") "worker_input.size_bytes"
      mediaType := ← string (valueAt data "media_type") "worker_input.media_type" }

/-- The digests of configurations, one after another. -/
def configDigestItems (entries : List (PyStr × PyValue φ)) : Decoder (List (String × String)) :=
  entries.mapM fun entry => do
    let key ← string (.str entry.1 : PyValue φ) "worker_task.config_digests key"
    let text ← digest entry.2 (PyStr.ofString "config_digests." ++ entry.1)
    return (key, text)

/-- The digests of the configurations of a task. -/
def configDigests (value : PyValue φ) : Decoder (List (String × String)) := do
  let entries ← object value "worker_task.config_digests"
  let items ← configDigestItems entries
  if items = [] then
    workers.invalid "worker_task.config_digests" " must not be empty" []
  else
    return items

/-- The document of the digests of configurations. -/
def digestsJson (digests : List (String × String)) : PyValue φ :=
  record (digests.map fun entry => (entry.1, .str entry.2))

section

variable [PyFinite φ]

/-- The fields of a task. -/
structure WorkerTaskV1.Fields (φ : Type) where
  schemaVersion : ℕ
  taskId : String
  jobId : String
  jobRevision : ℕ
  attemptId : String
  kind : WorkerKind
  inputArtifacts : List WorkerInputArtifact
  configDigests : List (String × String)
  stagingDir : String
  payload : PyValue φ

/-- The checks of the constructor of a task. -/
def WorkerTaskV1.Fields.postInit (task : WorkerTaskV1.Fields φ) : Decoder Unit := do
  check (schema (intField task.schemaVersion) "worker_task.schema_version")
  check (identifier (textField task.taskId) "worker_task.task_id")
  check (identifier (textField task.jobId) "worker_task.job_id")
  check (integer (intField task.jobRevision) "worker_task.job_revision")
  check (identifier (textField task.attemptId) "worker_task.attempt_id")
  invalidIf (¬ (task.inputArtifacts.map fun artifact => artifact.val.role).Nodup)
    "worker_task has duplicate input artifact role"
  invalidIf (¬ (task.inputArtifacts.map fun artifact => artifact.val.absolutePath).Nodup)
    "worker_task has duplicate input artifact path"
  check (Workers.configDigests (digestsJson task.configDigests : PyValue Empty))
  check (absolutePath (textField task.stagingDir) "worker_task.staging_dir")
  let frozenPayload ← freezeObject task.payload "worker_task.payload"
  validateWorkerPayload task.kind frozenPayload

/-- A task. Its payload is a mapping, which has no key twice. -/
structure WorkerTaskV1 (φ : Type) [PyFinite φ] extends WorkerTaskV1.Fields φ where
  accepted : toFields.postInit = .ok ()
  nodup_payload : ((entriesOf payload).map Prod.fst).Nodup

/-- The names of the fields of a task. -/
def taskFields : List String :=
  ["schema_version", "task_id", "job_id", "job_revision", "attempt_id", "kind", "input_artifacts",
    "config_digests", "staging_dir", "payload"]

/-- The kinds of workers. -/
def workerKinds : List WorkerKind :=
  [.imagePrepare, .providerLocalComfyui, .pathsPlan, .gcodeBuild, .gcodeCheck, .testEcho, .testHang]

/-- The document of a task. -/
def WorkerTaskV1.toJson (task : WorkerTaskV1 φ) : PyValue φ :=
  record
    [("schema_version", .int task.schemaVersion),
      ("task_id", .str task.taskId),
      ("job_id", .str task.jobId),
      ("job_revision", .int task.jobRevision),
      ("attempt_id", .str task.attemptId),
      ("kind", .str task.kind.value),
      ("input_artifacts", .arr (task.inputArtifacts.map WorkerInputArtifact.toJson)),
      ("config_digests", digestsJson task.configDigests),
      ("staging_dir", .str task.stagingDir),
      ("payload", task.payload)]

/-- The fields of a task that its constructor accepts, from the document of the task. -/
def WorkerTaskV1.fromJson (payload : PyValue φ) :
    Decoder { task : WorkerTaskV1.Fields φ // task.postInit = .ok () } := do
  let data ← object payload "worker task"
  exactFields data taskFields "worker task"
  let inputs ← workers.arrayItems (valueAt data "input_artifacts")
    "worker_task.input_artifacts must be a JSON array"
  acceptIf WorkerTaskV1.Fields.postInit
    { schemaVersion := ← schema (valueAt data "schema_version") "worker_task.schema_version"
      taskId := ← identifier (valueAt data "task_id") "worker_task.task_id"
      jobId := ← identifier (valueAt data "job_id") "worker_task.job_id"
      jobRevision := ← integer (valueAt data "job_revision") "worker_task.job_revision"
      attemptId := ← identifier (valueAt data "attempt_id") "worker_task.attempt_id"
      kind := ← enum workerKinds WorkerKind.value (valueAt data "kind") "worker_task.kind"
      inputArtifacts := ← inputs.mapM WorkerInputArtifact.fromJson
      configDigests := ← Workers.configDigests (valueAt data "config_digests")
      stagingDir := ← absolutePath (valueAt data "staging_dir") "worker_task.staging_dir"
      payload := ← freezeObject (valueAt data "payload") "worker_task.payload" }

/-! ### Outcomes -/

/-- The error of a worker with the checks of its fields made. -/
def errorPayload (value : ErrorPayload φ) (context : PyStr) : Decoder (ErrorPayload φ) := do
  let code ← string (textField value.code) (context ++ PyStr.ofString ".code")
  let message ← string (textField value.message) (context ++ PyStr.ofString ".message")
  let details ← freezeObject value.details (context ++ PyStr.ofString ".details")
  let requestId ← nullableString (optionalField value.requestId : PyValue Empty)
    (context ++ PyStr.ofString ".request_id")
  let jobId ← nullableIdentifier (optionalField value.jobId : PyValue Empty)
    (context ++ PyStr.ofString ".job_id")
  return { value with
    code := code, message := message, details := details, requestId := requestId, jobId := jobId }

/-- The category of an error, whose error does not name the value. -/
def errorCategory (value : PyValue φ) (field : PyStr) : Decoder ErrorCategory := do
  let text ← string value field
  match categories.find? fun category => categoryValue category = text with
  | some category => return category
  | none => workers.invalid field " has an invalid value" []

/-- The error of a worker, from its document. -/
def errorPayloadOfJson (value : PyValue φ) (context : PyStr) : Decoder (ErrorPayload φ) := do
  let data ← object value context
  exactFields data errorFields context
  let category ← errorCategory (valueAt data "category") (context ++ PyStr.ofString ".category")
  return {
    code := ← string (valueAt data "code") (context ++ PyStr.ofString ".code")
    category := category
    message := ← string (valueAt data "message") (context ++ PyStr.ofString ".message")
    retryable := ← boolean (valueAt data "retryable") (context ++ PyStr.ofString ".retryable")
    details := ← freezeObject (valueAt data "details") (context ++ PyStr.ofString ".details")
    requestId :=
      ← nullableString (valueAt data "request_id") (context ++ PyStr.ofString ".request_id")
    jobId :=
      ← nullableIdentifier (valueAt data "job_id") (context ++ PyStr.ofString ".job_id") }

/-- The document of an error, with its checks made again. -/
def errorJson (value : ErrorPayload φ) : Decoder (PyValue φ) := do
  let error ← errorPayload value "worker_outcome.error"
  return errorDocument error

end

/-- An artifact of a worker, which its constructor does not look at. -/
structure WorkerArtifact where
  role : String
  relativePath : String
  sha256 : String
  sizeBytes : ℕ
  mediaType : String
  deriving DecidableEq

/-- An artifact of a worker, from the values of its fields. -/
def artifactOf (role path sha256 size media : PyValue φ) (context : PyStr) :
    Decoder WorkerArtifact := do
  return {
    role := ← string role (context ++ PyStr.ofString ".role")
    relativePath := ← relativePath path (context ++ PyStr.ofString ".relative_path")
    sha256 := ← digest sha256 (context ++ PyStr.ofString ".sha256")
    sizeBytes := ← integer size (context ++ PyStr.ofString ".size_bytes")
    mediaType := ← string media (context ++ PyStr.ofString ".media_type") }

/-- An artifact of a worker with the checks of its fields made. -/
def workerArtifact (value : WorkerArtifact) (context : PyStr) : Decoder WorkerArtifact :=
  artifactOf (textField value.role) (textField value.relativePath) (textField value.sha256)
    (intField value.sizeBytes) (textField value.mediaType) context

/-- The names of the fields of an artifact. -/
def artifactFields : List String :=
  ["role", "relative_path", "sha256", "size_bytes", "media_type"]

/-- An artifact of a worker, from its document. -/
def workerArtifactOfJson (value : PyValue φ) (context : PyStr) : Decoder WorkerArtifact := do
  let data ← object value context
  exactFields data artifactFields context
  artifactOf (valueAt data "role") (valueAt data "relative_path") (valueAt data "sha256")
    (valueAt data "size_bytes") (valueAt data "media_type") context

/-- The document of an artifact. -/
def artifactDocument (artifact : WorkerArtifact) : PyValue φ :=
  record
    [("role", .str artifact.role),
      ("relative_path", .str artifact.relativePath),
      ("sha256", .str artifact.sha256),
      ("size_bytes", .int artifact.sizeBytes),
      ("media_type", .str artifact.mediaType)]

/-- The document of an artifact, with its checks made again. -/
def artifactJson (value : WorkerArtifact) : Decoder (PyValue φ) := do
  let artifact ← workerArtifact value "worker_outcome.artifact"
  return artifactDocument artifact

section

variable [PyFinite φ]

/-- The fields of an outcome. -/
structure WorkerOutcomeV1.Fields (φ : Type) where
  schemaVersion : ℕ
  taskId : String
  jobId : String
  jobRevision : ℕ
  attemptId : String
  status : WorkerStatus
  artifacts : List WorkerArtifact
  metrics : PyValue φ
  error : Option (ErrorPayload φ)

/-- The checks of the constructor of an outcome. -/
def WorkerOutcomeV1.Fields.postInit (outcome : WorkerOutcomeV1.Fields φ) : Decoder Unit := do
  check (schema (intField outcome.schemaVersion) "worker_outcome.schema_version")
  check (identifier (textField outcome.taskId) "worker_outcome.task_id")
  check (identifier (textField outcome.jobId) "worker_outcome.job_id")
  check (integer (intField outcome.jobRevision) "worker_outcome.job_revision")
  check (identifier (textField outcome.attemptId) "worker_outcome.attempt_id")
  let artifacts ← outcome.artifacts.mapM fun item => workerArtifact item "worker_outcome.artifact"
  invalidIf (¬ (artifacts.map WorkerArtifact.role).Nodup)
    "worker_outcome has duplicate artifact role"
  invalidIf (¬ (artifacts.map WorkerArtifact.relativePath).Nodup)
    "worker_outcome has duplicate artifact path"
  invalidIf ((outcome.status = .failed ∨ outcome.status = .cancelled) ∧ artifacts ≠ [])
    "failed or cancelled worker outcomes must not publish artifacts"
  check (freezeObject outcome.metrics "worker_outcome.metrics")
  invalidIf (outcome.status = .succeeded ∧ outcome.error.isSome)
    "successful worker outcome must not contain an error"
  invalidIf (outcome.status ≠ .succeeded ∧ outcome.error.isNone)
    "non-success worker outcome must contain an error"
  let error ← outcome.error.mapM fun error => errorPayload error "worker_outcome.error"
  invalidIf (∃ e ∈ error, e.jobId ≠ none ∧ e.jobId ≠ some outcome.jobId)
    "worker_outcome.error job_id must match outcome job_id"

/-- An outcome. -/
def WorkerOutcomeV1 (φ : Type) [PyFinite φ] :=
  { outcome : WorkerOutcomeV1.Fields φ // outcome.postInit = .ok () }

/-- The names of the fields of an outcome. -/
def outcomeFields : List String :=
  ["schema_version", "task_id", "job_id", "job_revision", "attempt_id", "status", "artifacts",
    "metrics", "error"]

/-- The ways in which a worker ends. -/
def workerStatuses : List WorkerStatus := [.succeeded, .blocked, .failed, .cancelled]

/-- The document of an outcome. -/
def WorkerOutcomeV1.document (outcome : WorkerOutcomeV1 φ) : PyValue φ :=
  record
    [("schema_version", .int outcome.val.schemaVersion),
      ("task_id", .str outcome.val.taskId),
      ("job_id", .str outcome.val.jobId),
      ("job_revision", .int outcome.val.jobRevision),
      ("attempt_id", .str outcome.val.attemptId),
      ("status", .str outcome.val.status.value),
      ("artifacts", .arr (outcome.val.artifacts.map artifactDocument)),
      ("metrics", outcome.val.metrics),
      ("error", optionalJson errorDocument outcome.val.error)]

/-- The document of an outcome, with the checks of its artifacts and its error made again. -/
def WorkerOutcomeV1.toJson (outcome : WorkerOutcomeV1 φ) : Decoder (PyValue φ) := do
  check (outcome.val.artifacts.mapM fun artifact => (artifactJson artifact : Decoder (PyValue φ)))
  check (outcome.val.error.mapM errorJson)
  return outcome.document

/-- An outcome, from its document. -/
def WorkerOutcomeV1.fromJson (payload : PyValue φ) : Decoder (WorkerOutcomeV1 φ) := do
  let data ← object payload "worker outcome"
  exactFields data outcomeFields "worker outcome"
  let artifacts ← workers.arrayItems (valueAt data "artifacts")
    "worker_outcome.artifacts must be a JSON array"
  acceptIf WorkerOutcomeV1.Fields.postInit
    { schemaVersion := ← schema (valueAt data "schema_version") "worker_outcome.schema_version"
      taskId := ← identifier (valueAt data "task_id") "worker_outcome.task_id"
      jobId := ← identifier (valueAt data "job_id") "worker_outcome.job_id"
      jobRevision := ← integer (valueAt data "job_revision") "worker_outcome.job_revision"
      attemptId := ← identifier (valueAt data "attempt_id") "worker_outcome.attempt_id"
      status :=
        ← enum workerStatuses WorkerStatus.value (valueAt data "status") "worker_outcome.status"
      artifacts :=
        ← artifacts.mapM fun item => workerArtifactOfJson item "worker_outcome.artifact"
      metrics := ← freezeObject (valueAt data "metrics") "worker_outcome.metrics"
      error :=
        ← Contract.nullable (fun value => errorPayloadOfJson value "worker_outcome.error")
          (valueAt data "error") }

end

end DrawingMachine.Document.Workers
