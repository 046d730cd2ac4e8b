import DrawingMachine.Documents.JobRoundTrips
import DrawingMachine.Documents.WorkerRoundTrips

/-!
# Durable documents and worker messages round trip

A record that its constructor accepts is read back from its document and from the canonical
JSON of the document, as an equal record. Jobs, snapshots and tasks always are. The constructor
of an outcome does not look at the keys of its metrics and of the details of its error: an
outcome is read back exactly when all of them are texts, since the encoding of its canonical
JSON raises a `UnicodeEncodeError` otherwise.
-/

namespace DrawingMachine.Document

open PyValue

variable {φ : Type} [PyFinite φ]

/-! ### What can be written -/

omit [PyFinite φ] in
/-- The conditions on a document are those on its fields, when they hold of the names. -/
theorem all_record_iff {leaf : PyValue φ → Bool} {key : PyStr → Bool}
    {fields : List (String × PyValue φ)} (hkey : ∀ name, key (PyStr.ofString name) = true) :
  all leaf key (record fields) = true ↔ ∀ field ∈ fields, all leaf key field.2 = true
  := by
  rw [record, all, allEntries_iff, List.forall_mem_map]
  simp only [hkey, true_and]

/-- A document can be written exactly when its fields can. -/
theorem writable_record_iff {fields : List (String × PyValue φ)} :
  writable (record fields) = true ↔ ∀ field ∈ fields, writable field.2 = true
  := all_record_iff PyStr.encodable_ofString

/-- A text can be written. -/
@[simp] theorem writable_text {text : String} : writable (.str text : PyValue φ) = true :=
  PyStr.encodable_ofString text

/-- An integer can be written exactly when it is printable. -/
theorem writable_int_iff {n : ℤ} : writable (.int n : PyValue φ) = true ↔ Printable n := by
  rw [writable, all, isPlain, decide_eq_true_iff]

/-- An array can be written exactly when its items can. -/
theorem writable_arr_map_iff {α : Type} {toJson : α → PyValue φ} {parts : List α} :
  writable (.arr (parts.map toJson)) = true ↔ ∀ a ∈ parts, writable (toJson a) = true
  := by
  rw [writable, all, allItems_iff]
  simp [writable]

/-- A part that may be absent can be written exactly when it can where it is there. -/
theorem writable_optionalJson_iff {α : Type} {toJson : α → PyValue φ} {part : Option α} :
  writable (optionalJson toJson part) = true ↔ ∀ a ∈ part, writable (toJson a) = true
  := by
  cases part with
  | none => simp [optionalJson, writable, all, isPlain]
  | some a => simp [optionalJson]

/-- A text that may be absent can be written. -/
@[simp] theorem writable_optionalField {text : Option String} :
  writable (optionalField text : PyValue φ) = true
  := by
  cases text with
  | none => rfl
  | some t => apply writable_text

/-- All keys of the objects in a value are texts. -/
def keysEncodable (value : PyValue φ) : Bool := all (fun _ => true) PyStr.encodable value

/-- JSON that a job can store can be written. -/
theorem writable_of_jobs {value : PyValue φ} (h : jobs.Storable value) :
  writable value = true
  := h.2

/-- JSON that a worker can store can be written exactly when all of its keys are texts. -/
theorem writable_iff_of_workers {value : PyValue φ} (h : workers.Storable value) :
  writable value = true ↔ keysEncodable value = true
  := by
  have hand : writable value = (workers.stored value && keysEncodable value) := by
    rw [Contract.stored, keysEncodable, ← all_and]
    simp [writable, workers]
  rw [hand, h.2, Bool.true_and]

/-! ### Round trips -/

/-- What is written of a record is read back as an equal one: from its document, and from what
`json.loads` reads of its canonical JSON. -/
def RoundTrips {β : Type} (toJson : Decoder (PyValue φ)) (fromJson : PyValue φ → Decoder β)
    (Equal : β → Prop) : Prop :=
  ∃ v, toJson = .ok v ∧ (∃ b, fromJson v = .ok b ∧ Equal b) ∧
    ∃ w, wire v = some w ∧ ∃ b, fromJson w = .ok b ∧ Equal b

/-- A record that is read back from its document in any order of keys round trips exactly when
the document can be written. -/
theorem roundTrips_iff {β : Type} {toJson : Decoder (PyValue φ)} {fromJson : PyValue φ → Decoder β}
    {Equal : β → Prop} {v : PyValue φ} (hv : toJson = .ok v)
    (h : ∀ {w}, Same v w → ∃ b, fromJson w = .ok b ∧ Equal b) :
  RoundTrips toJson fromJson Equal ↔ writable v = true
  := by
  constructor
  · rintro ⟨v', hv', -, w, hw, -⟩
    rw [hv] at hv'
    cases hv'
    by_contra hwritable
    rw [wire, if_neg hwritable] at hw
    cases hw
  · intro hwritable
    use v, hv, h (same_refl v), canonical v
    rw [wire, if_pos hwritable]
    apply And.intro rfl (h (same_canonical v))

namespace Jobs

/-- The document of an artifact can be written. -/
theorem ArtifactRef.writable_toJson (artifact : ArtifactRef) :
  writable (artifact.toJson : PyValue φ) = true
  := by
  obtain ⟨-, -, -, size, -⟩ := ArtifactRef.Fields.postInit_eq_ok_iff.mp artifact.property
  simp only [toJson, writable_record_iff, List.forall_mem_cons, writable_text, writable_int_iff,
    size]
  simp

/-- The document of a configuration can be written. -/
theorem ConfigSnapshot.writable_toJson (config : ConfigSnapshot) :
  writable (config.toJson : PyValue φ) = true
  := by
  obtain ⟨-, -, application, machine, provider, -⟩ :=
    ConfigSnapshot.Fields.postInit_eq_ok_iff.mp config.property
  simp only [toJson, writable_record_iff, List.forall_mem_cons, writable_text, writable_int_iff,
    application, machine, provider]
  simp [Contract.printable_one]

/-- The document of a snapshot can be written. -/
theorem ReadyToRunSnapshot.writable_toJson (snapshot : ReadyToRunSnapshot φ) :
  writable snapshot.toJson = true
  := by
  obtain ⟨version, -, ⟨-, revision⟩, -, -, -, result, plan, readiness, parameters, -⟩ :=
    ReadyToRunSnapshot.Fields.postInit_eq_ok_iff.mp snapshot.property
  simp only [toJson, writable_record_iff, List.forall_mem_cons, writable_text, writable_int_iff,
    version, revision, ArtifactRef.writable_toJson, writable_arr_map_iff, writable_of_jobs result,
    writable_of_jobs plan, writable_of_jobs readiness, ConfigSnapshot.writable_toJson,
    writable_of_jobs parameters]
  simp [Contract.printable_one]

/-- The document of a job can be written. -/
theorem JobRecord.writable_document {iso : IsoFormat} (job : JobRecord φ) :
  writable (job.document iso) = true
  := by
  obtain ⟨version, -, -, -, revision, request, ⟨errorGood, -⟩, -⟩ :=
    JobRecord.Fields.postInit_eq_ok_iff.mp job.property
  have hblocker : ∀ blocker ∈ job.val.blocker, writable blocker.toJson = true := by
    intro blocker _
    obtain ⟨-, -, details⟩ := JobBlocker.Fields.postInit_eq_ok_iff.mp blocker.property
    simp only [JobBlocker.toJson, writable_record_iff, List.forall_mem_cons, writable_text,
      writable_of_jobs details]
    simp
  have herror : ∀ error ∈ job.val.error, writable (errorDocument error) = true := by
    intro error he
    obtain ⟨-, -, details, -⟩ := errorGood error he
    simp only [errorDocument, writable_record_iff, List.forall_mem_cons, writable_text,
      writable_of_jobs details, writable_optionalField]
    simp [writable, all, isPlain]
  simp only [document, writable_record_iff, List.forall_mem_cons, writable_text, writable_int_iff,
    version, revision, writable_of_jobs request, ConfigSnapshot.writable_toJson,
    writable_optionalJson_iff, ReadyToRunSnapshot.writable_toJson]
  simpa [Contract.printable_one] using And.intro hblocker herror

/-- The document of a job is made: the checks of its error pass again. -/
theorem JobRecord.toJson_eq {iso : IsoFormat} (job : JobRecord φ) :
  job.toJson iso = .ok (job.document iso)
  := by
  obtain ⟨-, -, -, -, -, -, ⟨errorGood, -⟩, -⟩ :=
    JobRecord.Fields.postInit_eq_ok_iff.mp job.property
  rw [toJson]
  cases herror : job.val.error with
  | none => rfl
  | some error =>
      have hclone : cloneError error "error" = .ok error :=
        cloneError_eq_ok_iff.mpr ⟨rfl, errorGood error herror⟩
      simp only [Option.mapM_some, errorJson, hclone, ok_bind]
      rfl

/-- A job round trips. -/
theorem JobRecord.roundTrips {iso : IsoFormat} (job : JobRecord φ)
    (hcreated : iso.Reads job.val.createdAt) (hupdated : iso.Reads job.val.updatedAt) :
  RoundTrips (job.toJson iso) (JobRecord.fromJson iso) job.Same
  := by
  apply (roundTrips_iff job.toJson_eq _).mpr job.writable_document
  intro w hsame
  apply job.fromJson_of_same hcreated hupdated hsame

/-- A snapshot round trips. -/
theorem ReadyToRunSnapshot.roundTrips (snapshot : ReadyToRunSnapshot φ) :
  RoundTrips (.ok snapshot.toJson) ReadyToRunSnapshot.fromJson snapshot.Same
  := by
  apply (roundTrips_iff rfl _).mpr snapshot.writable_toJson
  intro w hsame
  apply snapshot.fromJson_of_same hsame

end Jobs

namespace Workers

/-- The document of an input can be written. -/
theorem WorkerInputArtifact.writable_toJson (artifact : WorkerInputArtifact) :
  writable (artifact.toJson : PyValue φ) = true
  := by
  obtain ⟨-, -, -, size, -⟩ := WorkerInputArtifact.Fields.postInit_eq_ok_iff.mp artifact.property
  simp only [toJson, writable_record_iff, List.forall_mem_cons, writable_text, writable_int_iff,
    size]
  simp

/-- The document of a task can be written: its payload has no keys but those of its schema. -/
theorem WorkerTaskV1.writable_toJson (task : WorkerTaskV1 φ) : writable task.toJson = true := by
  obtain ⟨version, -, -, revision, -, -, -, -, -, payload, valid⟩ :=
    WorkerTaskV1.Fields.postInit_eq_ok_iff.mp task.accepted
  obtain ⟨schema, hfits⟩ := exists_fits valid
  have hpayload : writable task.payload = true :=
    (writable_iff_of_workers payload).mpr (encodable_of_fits task.payload hfits)
  have hdigests : writable (digestsJson task.configDigests : PyValue φ) = true := by
    simp only [digestsJson, writable_record_iff, List.forall_mem_map, writable_text, implies_true]
  simp only [toJson, writable_record_iff, List.forall_mem_cons, writable_text, writable_int_iff,
    version, revision, writable_arr_map_iff, WorkerInputArtifact.writable_toJson, hdigests,
    hpayload]
  simp [Contract.printable_one]

/-- A task round trips. -/
theorem WorkerTaskV1.roundTrips (task : WorkerTaskV1 φ) :
  RoundTrips (.ok task.toJson) WorkerTaskV1.fromJson fun task' => task.toFields.Same task'.val
  := by
  apply (roundTrips_iff rfl _).mpr task.writable_toJson
  intro w hsame
  apply task.fromJson_of_same hsame

/-- All keys in the metrics of an outcome and in the details of its error are texts. -/
def WorkerOutcomeV1.KeysEncodable (outcome : WorkerOutcomeV1 φ) : Prop :=
  keysEncodable outcome.val.metrics = true ∧
    ∀ error ∈ outcome.val.error, keysEncodable error.details = true

/-- The document of an outcome can be written exactly when all of its keys are texts. -/
theorem WorkerOutcomeV1.writable_document_iff (outcome : WorkerOutcomeV1 φ) :
  writable outcome.document = true ↔ outcome.KeysEncodable
  := by
  obtain ⟨version, -, -, revision, -, artifacts, -, -, -, metrics, -, -, errorGood, -⟩ :=
    WorkerOutcomeV1.Fields.postInit_eq_ok_iff.mp outcome.property
  have hartifacts : ∀ artifact ∈ outcome.val.artifacts,
      writable (artifactDocument artifact : PyValue φ) = true := by
    intro artifact ha
    obtain ⟨-, -, -, size, -⟩ := artifacts artifact ha
    simp only [artifactDocument, writable_record_iff, List.forall_mem_cons, writable_text,
      writable_int_iff, size]
    simp
  have herror : ∀ error ∈ outcome.val.error,
      (writable (errorDocument error) = true ↔ keysEncodable error.details = true) := by
    intro error he
    obtain ⟨-, -, details, -⟩ := errorGood error he
    rw [← writable_iff_of_workers details]
    simp only [errorDocument, writable_record_iff, List.forall_mem_cons, writable_text,
      writable_optionalField]
    simp [writable, all, isPlain]
  rw [KeysEncodable, ← forall₂_congr herror, ← writable_iff_of_workers metrics]
  simp only [document, writable_record_iff, List.forall_mem_cons, writable_text, writable_int_iff,
    version, revision, writable_arr_map_iff, writable_optionalJson_iff]
  simpa [Contract.printable_one] using fun _ _ => hartifacts

omit [PyFinite φ] in
/-- The documents of good artifacts are made. -/
theorem mapM_artifactJson {artifacts : List WorkerArtifact}
    (h : ∀ artifact ∈ artifacts, ArtifactGood artifact) :
  (artifacts.mapM fun artifact => (artifactJson artifact : Decoder (PyValue φ))) =
    .ok (artifacts.map artifactDocument)
  := by
  induction artifacts with
  | nil => rfl
  | cons artifact artifacts ih =>
      obtain ⟨hartifact, h⟩ := List.forall_mem_cons.mp h
      have hchecked : workerArtifact artifact "worker_outcome.artifact" = .ok artifact :=
        workerArtifact_eq_ok_iff.mpr ⟨rfl, hartifact⟩
      have hdocument : (artifactJson artifact : Decoder (PyValue φ)) =
          .ok (artifactDocument artifact) := by
        rw [artifactJson, hchecked, ok_bind]
        rfl
      rw [List.mapM_cons, hdocument, ok_bind, ih h]
      rfl

/-- The document of an outcome is made: the checks of its parts pass again. -/
theorem WorkerOutcomeV1.toJson_eq (outcome : WorkerOutcomeV1 φ) :
  outcome.toJson = .ok outcome.document
  := by
  obtain ⟨-, -, -, -, -, artifacts, -, -, -, -, -, -, errorGood, -⟩ :=
    WorkerOutcomeV1.Fields.postInit_eq_ok_iff.mp outcome.property
  rw [toJson, check_eq_ok_iff.mpr ⟨_, mapM_artifactJson artifacts⟩, ok_bind]
  cases herror : outcome.val.error with
  | none => rfl
  | some error =>
      have hchecked : errorPayload error "worker_outcome.error" = .ok error :=
        errorPayload_eq_ok_iff.mpr ⟨rfl, errorGood error herror⟩
      simp only [Option.mapM_some, errorJson, hchecked, ok_bind]
      rfl

/-- An outcome round trips exactly when all of its keys are texts. -/
theorem WorkerOutcomeV1.roundTrips_iff (outcome : WorkerOutcomeV1 φ) :
  RoundTrips outcome.toJson WorkerOutcomeV1.fromJson outcome.Same ↔ outcome.KeysEncodable
  := by
  rw [← outcome.writable_document_iff]
  apply Document.roundTrips_iff outcome.toJson_eq
  intro w hsame
  apply outcome.fromJson_of_same hsame

end Workers

/-! ### A job and an outcome -/

instance : PyFinite Empty := ⟨fun _ => true⟩

namespace Jobs

/-- The digest of a configuration. -/
def sampleDigest : String :=
  "0123456789abcdef0123456789abcdef0123456789abcdef0123456789abcdef"

/-- A configuration. -/
def sampleConfig : ConfigSnapshot :=
  ⟨{ machineProfile := "paper"
     providerProfile := "local"
     applicationSchemaVersion := 1
     machineSchemaVersion := 1
     providerSchemaVersion := 1
     applicationDigest := sampleDigest
     machineDigest := sampleDigest
     providerDigest := sampleDigest },
    ConfigSnapshot.Fields.postInit_eq_ok_iff.mpr (by decide)⟩

/-- An empty JSON object can be stored. -/
theorem storable_empty {c : Contract} : c.Storable (.obj [] : PyValue Empty) := ⟨⟨[], rfl⟩, rfl⟩

/-- A job that has been queued. -/
def sampleJob : JobRecord Empty :=
  ⟨{ schemaVersion := 1
     jobId := "job-1"
     kind := .gcodeCheck
     name := "check"
     state := .queued
     revision := 1
     request := .obj []
     config := sampleConfig
     blocker := none
     error := none
     readySnapshot := none
     createdAt := 0
     updatedAt := 0 }, by
    apply JobRecord.Fields.postInit_eq_ok_iff.mpr
    refine ⟨rfl, by decide, by decide, rfl, Contract.printable_one, storable_empty, ⟨?_, ?_⟩, ?_,
      ?_, le_rfl⟩
    · rintro _ ⟨⟩
    · exact ⟨rfl, rfl, rfl⟩
    · rintro _ ⟨⟩
    · rintro _ ⟨⟩⟩

/-- The conversions of a date and time that the sample job needs. -/
def sampleIso : IsoFormat where
  isoformat _ := "1970-01-01T00:00:00+00:00"
  fromisoformat text := if text = "1970-01-01T00:00:00+00:00" then some (.aware 0) else none

end Jobs

/-! ### All documents -/

/-- Every job, snapshot and task round trips, and an outcome does exactly when all keys in its
metrics and in the details of its error are texts. -/
theorem documents_round_trip (iso : Jobs.IsoFormat) :
  (∀ job : Jobs.JobRecord φ, iso.Reads job.val.createdAt → iso.Reads job.val.updatedAt →
      RoundTrips (job.toJson iso) (Jobs.JobRecord.fromJson iso) job.Same) ∧
    (∀ snapshot : Jobs.ReadyToRunSnapshot φ,
      RoundTrips (.ok snapshot.toJson) Jobs.ReadyToRunSnapshot.fromJson snapshot.Same) ∧
    (∀ task : Workers.WorkerTaskV1 φ,
      RoundTrips (.ok task.toJson) Workers.WorkerTaskV1.fromJson
        fun task' => task.toFields.Same task'.val) ∧
    ∀ outcome : Workers.WorkerOutcomeV1 φ,
      (RoundTrips outcome.toJson Workers.WorkerOutcomeV1.fromJson outcome.Same ↔
        outcome.KeysEncodable)
  := by
  refine ⟨?jobs, ?snapshots, ?tasks, ?outcomes⟩
  case jobs =>
    intro job hcreated hupdated
    apply job.roundTrips hcreated hupdated
  case snapshots =>
    intro snapshot
    apply snapshot.roundTrips
  case tasks =>
    intro task
    apply task.roundTrips
  case outcomes =>
    intro outcome
    apply outcome.roundTrips_iff

/-- The sample job round trips. -/
theorem sampleJob_round_trips :
  Jobs.sampleIso.Reads 0 ∧
    RoundTrips (Jobs.sampleJob.toJson Jobs.sampleIso) (Jobs.JobRecord.fromJson Jobs.sampleIso)
      Jobs.sampleJob.Same
  := by
  have hreads : Jobs.sampleIso.Reads 0 := ⟨by decide, rfl⟩
  apply And.intro hreads ((documents_round_trip Jobs.sampleIso).1 Jobs.sampleJob hreads hreads)

namespace Workers

/-- An outcome whose metrics have a key that is a lone surrogate. -/
def surrogateOutcome : WorkerOutcomeV1 Empty :=
  ⟨{ schemaVersion := 1
     taskId := "task-1"
     jobId := "job-1"
     jobRevision := 1
     attemptId := "attempt-1"
     status := .succeeded
     artifacts := []
     metrics := .obj [([0xd800], .int 1)]
     error := none }, by
    apply WorkerOutcomeV1.Fields.postInit_eq_ok_iff.mpr
    refine ⟨rfl, by decide, by decide, Contract.printable_one, by decide, by simp, by decide,
      by decide, fun _ => rfl, ⟨⟨_, rfl⟩, ?_⟩, fun _ => rfl, fun h => absurd rfl h, ?_, ?_⟩
    · simpa [Contract.stored, all, allEntries, isPlain, workers] using Contract.printable_one
    · rintro _ ⟨⟩
    · rintro _ ⟨⟩⟩

/-- An outcome that its constructor accepts need not round trip. -/
theorem surrogateOutcome_does_not_round_trip :
  ¬ RoundTrips surrogateOutcome.toJson WorkerOutcomeV1.fromJson surrogateOutcome.Same
  := by
  rw [surrogateOutcome.roundTrips_iff]
  rintro ⟨hmetrics, -⟩
  cases hmetrics

end Workers

end DrawingMachine.Document
