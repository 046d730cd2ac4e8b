import Mathlib.Algebra.CharZero.Defs
import Mathlib.Data.Int.Cast.Lemmas
import DrawingMachine.Documents.Reading
import DrawingMachine.Documents.WorkerPayloads

/-!
# Reading the messages of workers back

Every task and every outcome is read back from its document, whatever the order in which the
keys of the document and of the JSON in it come: the decoder checks the same conditions as the
constructor, and none of them depends on an order.
-/

namespace DrawingMachine.Document.Workers

open PyValue

variable {φ : Type}

section

variable [PyFinite φ]

/-- Two tasks are equal, up to the order of keys in their mappings. -/
def WorkerTaskV1.Fields.Same (task task' : WorkerTaskV1.Fields φ) : Prop :=
  task' = { task with configDigests := task'.configDigests, payload := task'.payload } ∧
    task.configDigests.Perm task'.configDigests ∧ PyValue.Same task.payload task'.payload

/-- Two outcomes are equal, up to the order of keys in their JSON. -/
def WorkerOutcomeV1.Same (outcome outcome' : WorkerOutcomeV1 φ) : Prop :=
  outcome'.val =
      { outcome.val with metrics := outcome'.val.metrics, error := outcome'.val.error } ∧
    PyValue.Same outcome.val.metrics outcome'.val.metrics ∧
    Option.Rel ErrorPayload.Same outcome.val.error outcome'.val.error

end

/-! ### Identifiers and paths -/

section

variable {value : PyValue φ} {field : PyStr} {text : String}

/-- An identifier is accepted, and nothing else. -/
@[simp] theorem identifier_eq_ok_iff :
  identifier value field = .ok text ↔ value = .str (PyStr.ofString text) ∧ Identifier text
  := by
  simp only [identifier, Except.bind_eq_ok_iff, Contract.string_eq_ok_iff]
  constructor
  · rintro ⟨text', ⟨rfl, -⟩, h⟩
    split at h
    · cases Contract.invalid_ne_ok h
    · rename_i hidentifier
      cases h
      apply And.intro rfl (not_not.mp hidentifier)
  · rintro ⟨rfl, hidentifier⟩
    use text
    rw [if_neg (not_not.mpr hidentifier)]
    apply And.intro _ rfl
    use rfl
    rintro rfl
    obtain ⟨c, hc, -⟩ := hidentifier.1
    cases hc

/-- An identifier is read as itself. -/
theorem identifier_text (h : Identifier text) :
  identifier (.str text : PyValue φ) field = .ok text
  := by
  rw [identifier_eq_ok_iff]
  use rfl

/-- An absolute path in its canonical form is accepted, and nothing else. -/
@[simp] theorem absolutePath_eq_ok_iff :
  absolutePath value field = .ok text ↔ value = .str (PyStr.ofString text) ∧ AbsolutePath text
  := by
  simp only [absolutePath, Except.bind_eq_ok_iff, Contract.string_eq_ok_iff]
  constructor
  · rintro ⟨text', ⟨rfl, -⟩, h⟩
    split at h
    · cases Contract.invalid_ne_ok h
    · rename_i hpath
      cases h
      apply And.intro rfl (not_not.mp hpath)
  · rintro ⟨rfl, hpath⟩
    use text
    rw [if_neg (not_not.mpr hpath)]
    apply And.intro _ rfl
    use rfl
    rintro rfl
    obtain ⟨rest, hrest, -⟩ := hpath.2
    cases hrest

/-- An absolute path is read as itself. -/
theorem absolutePath_text (h : AbsolutePath text) :
  absolutePath (.str text : PyValue φ) field = .ok text
  := by
  rw [absolutePath_eq_ok_iff]
  use rfl

/-- An identifier that may be absent is accepted when it is one, as it is. -/
theorem nullableIdentifier_eq_ok_iff {text text' : Option String} :
  nullableIdentifier (optionalField text : PyValue φ) field = .ok text' ↔
    text' = text ∧ ∀ t ∈ text, Identifier t
  := by
  cases text with
  | none => simp [nullableIdentifier, optionalField, eq_comm]
  | some t =>
      rw [nullableIdentifier, optionalField, Contract.nullable_eq_ok_iff (by rintro ⟨⟩)]
      simp only [identifier_eq_ok_iff, PyValue.str.injEq, PyStr.ofString_inj,
        Option.mem_some_iff]
      constructor
      · rintro ⟨t', ⟨rfl, h⟩, rfl⟩
        use rfl
        rintro _ rfl
        exact h
      · rintro ⟨rfl, h⟩
        exact ⟨t, ⟨rfl, h t rfl⟩, rfl⟩

end

/-! ### Inputs -/

section

variable {w : PyValue φ}

/-- The constructor of an input accepts exactly the inputs whose fields are good. -/
theorem WorkerInputArtifact.Fields.postInit_eq_ok_iff {artifact : WorkerInputArtifact.Fields} :
  artifact.postInit = .ok () ↔ artifact.role ≠ "" ∧ AbsolutePath artifact.absolutePath ∧
    Sha256Hex artifact.sha256 ∧ Printable artifact.sizeBytes ∧ artifact.mediaType ≠ ""
  := by
  simp [postInit]

/-- An input is read back from its document. -/
theorem WorkerInputArtifact.fromJson_of_same (artifact : WorkerInputArtifact)
    (h : Same artifact.toJson w) :
  WorkerInputArtifact.fromJson w = .ok artifact
  := by
  obtain ⟨data, rfl, hexact, hfields⟩ := same_record inputFields rfl (by decide) h
  simp only [List.forall_mem_cons, same_str_iff, same_int_iff] at hfields
  obtain ⟨hrole, hpath, hsha, hsize, hmedia, -⟩ := hfields
  obtain ⟨role, path, sha, size, media⟩ :=
    WorkerInputArtifact.Fields.postInit_eq_ok_iff.mp artifact.property
  simp only [fromJson, Contract.object_obj, ok_bind, Contract.requireExactFields_of hexact, hrole,
    hpath, hsha, hsize, hmedia, Contract.string_text role, absolutePath_text path,
    Contract.digest_text sha, Contract.integer_nat (Nat.zero_le _) size,
    Contract.string_text media]
  apply Contract.acceptIf_of

/-! ### Digests of configurations -/

/-- The entry of the digest of a configuration. -/
def digestEntry (entry : String × String) : PyStr × PyValue φ :=
  (PyStr.ofString entry.1, .str (PyStr.ofString entry.2))

/-- The digests are good. -/
def DigestsGood (digests : List (String × String)) : Prop :=
  digests ≠ [] ∧ ∀ entry ∈ digests, entry.1 ≠ "" ∧ Sha256Hex entry.2

/-- Good digests are read as themselves. -/
theorem configDigests_of {digests : List (String × String)} (h : DigestsGood digests) :
  configDigests (.obj (digests.map digestEntry) : PyValue φ) = .ok digests
  := by
  have hitems : ∀ {l : List (String × String)}, (∀ entry ∈ l, entry.1 ≠ "" ∧ Sha256Hex entry.2) →
      configDigestItems (l.map digestEntry : List (PyStr × PyValue φ)) = .ok l := by
    intro l hl
    induction l with
    | nil => rfl
    | cons entry l ih =>
        obtain ⟨hentry, hl⟩ := List.forall_mem_cons.mp hl
        rw [configDigestItems] at ih ⊢
        rw [List.map_cons, List.mapM_cons, ih hl]
        simp only [digestEntry, Contract.string_text hentry.1, Contract.digest_text hentry.2,
          ok_bind]
        rfl
  simp only [configDigests, Contract.object_obj, ok_bind, hitems h.2, if_neg h.1]
  rfl

/-- The entries of digests that are accepted are those of good digests. -/
theorem forall_of_configDigestItems {l digests : List (String × String)}
    (h : configDigestItems (l.map digestEntry : List (PyStr × PyValue φ)) = .ok digests) :
  digests = l ∧ ∀ entry ∈ l, entry.1 ≠ "" ∧ Sha256Hex entry.2
  := by
  induction l generalizing digests with
  | nil =>
      cases h
      simp
  | cons entry l ih =>
      simp only [configDigestItems, List.map_cons, List.mapM_cons, digestEntry,
        Except.bind_eq_ok_iff, Contract.string_eq_ok_iff, Contract.digest_eq_ok_iff,
        PyValue.str.injEq, PyStr.ofString_inj, Except.pure_eq_ok_iff] at h ih
      obtain ⟨_, ⟨_, ⟨rfl, hname⟩, _, ⟨rfl, hdigest⟩, rfl⟩, rest, hrest, rfl⟩ := h
      obtain ⟨rfl, hrest⟩ := ih hrest
      use rfl
      simp only [List.forall_mem_cons]
      apply And.intro ⟨hname, hdigest⟩ hrest

/-- The document of digests has their entries. -/
theorem digestsJson_eq {digests : List (String × String)} :
  (digestsJson digests : PyValue φ) = .obj (digests.map digestEntry)
  := by
  rw [digestsJson, record, List.map_map]
  rfl

/-- Digests are accepted exactly when they are good. -/
theorem configDigests_digestsJson_iff {digests : List (String × String)} :
  (∃ digests', configDigests (digestsJson digests : PyValue φ) = .ok digests') ↔
    DigestsGood digests
  := by
  rw [digestsJson_eq]
  constructor
  · rintro ⟨digests', h⟩
    simp only [configDigests, Contract.object_obj, ok_bind, Except.bind_eq_ok_iff] at h
    obtain ⟨items, hitems, h⟩ := h
    obtain ⟨rfl, hgood⟩ := forall_of_configDigestItems hitems
    split at h
    · cases Contract.invalid_ne_ok h
    · rename_i hne
      apply And.intro hne hgood
  · intro h
    use digests, configDigests_of h

/-- A permutation of an image is the image of a permutation. -/
theorem exists_perm_of_map_perm {α β : Type} {f : α → β} {l : List α} {m : List β}
    (h : (l.map f).Perm m) :
  ∃ l', m = l'.map f ∧ l.Perm l'
  := by
  induction m generalizing l with
  | nil =>
      use [], rfl
      rw [List.perm_nil, List.map_eq_nil_iff] at h
      rw [h]
  | cons b m ih =>
      obtain ⟨a, ha, rfl⟩ := List.mem_map.mp (h.mem_iff.mpr List.mem_cons_self)
      obtain ⟨before, after, rfl⟩ := List.append_of_mem ha
      have hmiddle : ((before ++ a :: after).map f).Perm (f a :: (before ++ after).map f) :=
        List.Perm.map f List.perm_middle
      obtain ⟨l', rfl, hperm⟩ := ih (hmiddle.symm.trans h).cons_inv
      use a :: l', rfl
      apply List.perm_middle.trans (hperm.cons a)

/-- The same entries of digests are these entries. -/
theorem eq_of_same_digestEntry {digests : List (String × String)}
    {entries : List (PyStr × PyValue φ)} (h : SameEntries (digests.map digestEntry) entries) :
  entries = digests.map digestEntry
  := by
  induction digests generalizing entries with
  | nil =>
      obtain ⟨⟩ := h
      rfl
  | cons entry digests ih =>
      obtain ⟨⟩ | ⟨hvalue, hentries⟩ := h
      rw [ih hentries, same_str_iff.mp hvalue]
      rfl

/-- Digests are read back from their document, in the order of the document. -/
theorem configDigests_of_same {digests : List (String × String)} (hgood : DigestsGood digests)
    (h : Same (digestsJson digests) w) :
  ∃ digests', configDigests w = .ok digests' ∧ digests.Perm digests' ∧ DigestsGood digests'
  := by
  rw [digestsJson_eq] at h
  obtain ⟨middle, entries, rfl, hsame, horder⟩ := same_obj_iff.mp h
  obtain rfl := eq_of_same_digestEntry hsame
  obtain ⟨digests', rfl, hperm⟩ := exists_perm_of_map_perm horder
  have hgood' : DigestsGood digests' := by
    constructor
    · rintro rfl
      apply hgood.1 (List.perm_nil.mp hperm)
    · intro entry hentry
      apply hgood.2 entry (hperm.mem_iff.mpr hentry)
  use digests', configDigests_of hgood', hperm

/-- A kind of worker is read back from its name. -/
theorem enum_workerKind {kind : WorkerKind} {field : PyStr} :
  enum workerKinds WorkerKind.value (.str kind.value : PyValue φ) field = .ok kind
  := by
  apply Contract.enumeration_name
  · cases kind <;> decide
  · cases kind <;> decide

/-- How a worker has ended is read back from its name. -/
theorem enum_workerStatus {status : WorkerStatus} {field : PyStr} :
  enum workerStatuses WorkerStatus.value (.str status.value : PyValue φ) field = .ok status
  := by
  apply Contract.enumeration_name
  · cases status <;> decide
  · cases status <;> decide

end

/-! ### Tasks -/

section

variable [PyFinite φ] {w : PyValue φ}

/-- The constructor of a task accepts exactly the tasks whose fields are good. -/
theorem WorkerTaskV1.Fields.postInit_eq_ok_iff {task : WorkerTaskV1.Fields φ} :
  task.postInit = .ok () ↔ task.schemaVersion = 1 ∧ Identifier task.taskId ∧
    Identifier task.jobId ∧ Printable task.jobRevision ∧ Identifier task.attemptId ∧
    (task.inputArtifacts.map fun artifact => artifact.val.role).Nodup ∧
    (task.inputArtifacts.map fun artifact => artifact.val.absolutePath).Nodup ∧
    DigestsGood task.configDigests ∧ AbsolutePath task.stagingDir ∧
    workers.Storable task.payload ∧ validateWorkerPayload task.kind task.payload = .ok ()
  := by
  simp [postInit, Except.bind_eq_ok_iff, Except.exists_unit_iff,
    configDigests_digestsJson_iff, and_assoc]

/-- A task is read back from its document. -/
theorem WorkerTaskV1.fromJson_of_same (task : WorkerTaskV1 φ) (h : PyValue.Same task.toJson w) :
  ∃ task', WorkerTaskV1.fromJson w = .ok task' ∧ task.toFields.Same task'.val
  := by
  obtain ⟨data, rfl, hexact, hfields⟩ := same_record taskFields rfl (by decide) h
  simp only [List.forall_mem_cons, same_str_iff, same_int_iff, same_arr_iff] at hfields
  obtain ⟨hversion, htaskId, hjobId, hrevision, hattemptId, hkind, ⟨items, hitems, hinputs⟩,
    hdigests, hstaging, hpayload, -⟩ := hfields
  obtain ⟨version, taskId, jobId, revision, attemptId, roles, paths, digests, staging, payload,
    valid⟩ := WorkerTaskV1.Fields.postInit_eq_ok_iff.mp task.accepted
  obtain ⟨digests', hread, hperm, hgood⟩ := configDigests_of_same digests hdigests
  have haccepted : WorkerTaskV1.Fields.postInit
      { task.toFields with
        configDigests := digests'
        payload := valueAt data "payload" } = .ok () :=
    WorkerTaskV1.Fields.postInit_eq_ok_iff.mpr
      ⟨version, taskId, jobId, revision, attemptId, roles, paths, hgood, staging,
        payload.of_same hpayload, validateWorkerPayload_of_same hpayload task.nodup_payload valid⟩
  use ⟨_, haccepted⟩
  constructor
  · simp only [fromJson, Contract.object_obj, ok_bind, Contract.requireExactFields_of hexact,
      hitems, Contract.arrayItems, hversion, htaskId, hjobId, hrevision, hattemptId, hkind,
      hstaging, Contract.schemaVersion_nat version, identifier_text taskId, identifier_text jobId,
      Contract.integer_nat (Nat.zero_le _) revision, identifier_text attemptId, enum_workerKind,
      mapM_of_same (fun artifact _ => artifact.fromJson_of_same) hinputs, hread,
      absolutePath_text staging, Contract.freezeObject_of (payload.of_same hpayload)]
    apply Contract.acceptIf_of
  · exact ⟨rfl, hperm, hpayload⟩

end

/-! ### Artifacts of workers -/

section

variable {w : PyValue φ}

/-- The fields of an artifact are good. -/
def ArtifactGood (artifact : WorkerArtifact) : Prop :=
  artifact.role ≠ "" ∧
    (artifact.relativePath ≠ "" ∧ workers.RelativePath artifact.relativePath) ∧
    Sha256Hex artifact.sha256 ∧ Printable artifact.sizeBytes ∧ artifact.mediaType ≠ ""

/-- An artifact whose fields are good is made of their values. -/
theorem artifactOf_of {artifact : WorkerArtifact} {context : PyStr} (h : ArtifactGood artifact) :
  artifactOf (.str artifact.role) (.str artifact.relativePath) (.str artifact.sha256)
    (.int artifact.sizeBytes) (.str artifact.mediaType : PyValue φ) context = .ok artifact
  := by
  obtain ⟨role, ⟨path, canonical⟩, sha, size, media⟩ := h
  simp only [artifactOf, Contract.string_text role, Contract.relative_text path canonical,
    Contract.digest_text sha, Contract.integer_nat (Nat.zero_le _) size,
    Contract.string_text media, ok_bind]
  rfl

/-- The checks of an artifact accept exactly the artifacts whose fields are good, as they are. -/
theorem workerArtifact_eq_ok_iff {artifact artifact' : WorkerArtifact} {context : PyStr} :
  workerArtifact artifact context = .ok artifact' ↔ artifact' = artifact ∧ ArtifactGood artifact
  := by
  constructor
  · intro h
    simp only [workerArtifact, artifactOf, Except.bind_eq_ok_iff, Contract.string_eq_ok_iff,
      Contract.relative_eq_ok_iff, Contract.digest_eq_ok_iff, Contract.integer_eq_ok_iff,
      PyValue.str.injEq, PyStr.ofString_inj, PyValue.int.injEq, Nat.cast_inj,
      Except.pure_eq_ok_iff] at h
    obtain ⟨_, ⟨rfl, role⟩, _, ⟨rfl, path⟩, _, ⟨rfl, sha⟩, _, ⟨rfl, -, size⟩, _, ⟨rfl, media⟩,
      rfl⟩ := h
    exact ⟨rfl, role, path, sha, size, media⟩
  · rintro ⟨rfl, h⟩
    apply artifactOf_of h

/-- The checks of artifacts accept exactly the artifacts whose fields are good, as they are. -/
theorem mapM_workerArtifact_eq_ok_iff {artifacts artifacts' : List WorkerArtifact}
    {context : PyStr} :
  (artifacts.mapM fun item => workerArtifact item context) = .ok artifacts' ↔
    artifacts' = artifacts ∧ ∀ artifact ∈ artifacts, ArtifactGood artifact
  := by
  induction artifacts generalizing artifacts' with
  | nil =>
      rw [List.mapM_nil, Except.pure_eq_ok_iff, eq_comm]
      simp
  | cons artifact artifacts ih =>
      simp only [List.mapM_cons, Except.bind_eq_ok_iff, workerArtifact_eq_ok_iff, ih,
        Except.pure_eq_ok_iff, List.forall_mem_cons]
      constructor
      · rintro ⟨_, ⟨rfl, h⟩, _, ⟨rfl, hs⟩, rfl⟩
        use rfl
      · rintro ⟨rfl, h, hs⟩
        exact ⟨_, ⟨rfl, h⟩, _, ⟨rfl, hs⟩, rfl⟩

/-- An artifact is read back from its document. -/
theorem workerArtifactOfJson_of_same {artifact : WorkerArtifact} {context : PyStr}
    (hgood : ArtifactGood artifact) (h : Same (artifactDocument artifact) w) :
  workerArtifactOfJson w context = .ok artifact
  := by
  obtain ⟨data, rfl, hexact, hfields⟩ := same_record artifactFields rfl (by decide) h
  simp only [List.forall_mem_cons, same_str_iff, same_int_iff] at hfields
  obtain ⟨hrole, hpath, hsha, hsize, hmedia, -⟩ := hfields
  simp only [workerArtifactOfJson, Contract.object_obj, ok_bind,
    Contract.requireExactFields_of hexact, hrole, hpath, hsha, hsize, hmedia,
    artifactOf_of hgood]

end

/-! ### Errors of workers -/

section

variable [PyFinite φ] {w : PyValue φ}

/-- The fields of an error are good. -/
def ErrorGood (error : ErrorPayload φ) : Prop :=
  error.code ≠ "" ∧ error.message ≠ "" ∧ workers.Storable error.details ∧
    (∀ text ∈ error.requestId, text ≠ "") ∧ ∀ text ∈ error.jobId, Identifier text

/-- The checks of an error accept exactly the errors whose fields are good, as they are. -/
theorem errorPayload_eq_ok_iff {error error' : ErrorPayload φ} {context : PyStr} :
  errorPayload error context = .ok error' ↔ error' = error ∧ ErrorGood error
  := by
  simp only [errorPayload, Except.bind_eq_ok_iff, Contract.string_eq_ok_iff, PyValue.str.injEq,
    PyStr.ofString_inj, nullable_string_eq_ok_iff, nullableIdentifier_eq_ok_iff,
    Contract.freezeObject_eq_ok_iff, Except.pure_eq_ok_iff]
  constructor
  · rintro ⟨_, ⟨rfl, code⟩, _, ⟨rfl, message⟩, _, ⟨rfl, details⟩, _, ⟨rfl, requestId⟩, _,
      ⟨rfl, jobId⟩, rfl⟩
    exact ⟨rfl, code, message, details, requestId, jobId⟩
  · rintro ⟨rfl, code, message, details, requestId, jobId⟩
    exact ⟨_, ⟨rfl, code⟩, _, ⟨rfl, message⟩, _, ⟨rfl, details⟩, _, ⟨rfl, requestId⟩, _,
      ⟨rfl, jobId⟩, rfl⟩

/-- The fields of an error that is equal to a good one are good. -/
theorem ErrorGood.of_same {error error' : ErrorPayload φ} (h : ErrorGood error)
    (hsame : error.Same error') :
  ErrorGood error'
  := by
  obtain ⟨code, message, details, requestId, jobId⟩ := h
  obtain ⟨heq, hdetails⟩ := hsame
  rw [heq]
  exact ⟨code, message, details.of_same hdetails, requestId, jobId⟩

omit [PyFinite φ] in
/-- A category is read back from its name. -/
theorem errorCategory_category {category : ErrorCategory} {field : PyStr} :
  errorCategory (.str (categoryValue category) : PyValue φ) field = .ok category
  := by
  have hread : string (.str (categoryValue category) : PyValue φ) field =
      .ok (categoryValue category) := by
    apply Contract.string_text
    cases category <;> decide
  have hfind : (categories.find? fun member => categoryValue member = categoryValue category) =
      some category := by
    cases category <;> decide
  rw [errorCategory, hread, ok_bind, hfind]
  rfl

/-- An error is read back from its document. -/
theorem errorPayloadOfJson_of_same {error : ErrorPayload φ} (context : PyStr)
    (hgood : ErrorGood error) (h : PyValue.Same (errorDocument error) w) :
  ∃ error', errorPayloadOfJson w context = .ok error' ∧ error.Same error'
  := by
  obtain ⟨data, rfl, hexact, hfields⟩ := same_record errorFields rfl (by decide) h
  simp only [List.forall_mem_cons, same_str_iff, same_bool_iff, same_optionalField_iff] at hfields
  obtain ⟨hcode, hcategory, hmessage, hretryable, hdetails, hrequestId, hjobId, -⟩ := hfields
  obtain ⟨code, message, details, requestId, jobId⟩ := hgood
  have details' := details.of_same hdetails
  use { error with details := valueAt data "details" }
  constructor
  · have hrequest : nullableString (optionalField error.requestId : PyValue φ)
        (context ++ PyStr.ofString ".request_id") = .ok error.requestId :=
      nullable_string_eq_ok_iff.mpr ⟨rfl, requestId⟩
    have hjob : nullableIdentifier (optionalField error.jobId : PyValue φ)
        (context ++ PyStr.ofString ".job_id") = .ok error.jobId :=
      nullableIdentifier_eq_ok_iff.mpr ⟨rfl, jobId⟩
    simp only [errorPayloadOfJson, Contract.object_obj, ok_bind,
      Contract.requireExactFields_of hexact, hcode, hcategory, hmessage, hretryable,
      Contract.string_text code, errorCategory_category, Contract.string_text message,
      Contract.boolean_bool, Contract.freezeObject_of details', hrequestId, hrequest, hjobId,
      hjob]
    rfl
  · apply And.intro rfl hdetails

end

/-! ### Outcomes -/

section

variable [PyFinite φ] {w : PyValue φ}

/-- The checks of an error that may be absent accept it when its fields are good. -/
theorem mapM_errorPayload_eq_ok_iff {error error' : Option (ErrorPayload φ)} {context : PyStr} :
  (error.mapM fun error => errorPayload error context) = .ok error' ↔
    error' = error ∧ ∀ e ∈ error, ErrorGood e
  := by
  cases error with
  | none =>
      rw [Option.mapM_none, Except.pure_eq_ok_iff, eq_comm]
      simp
  | some e =>
      rw [Option.mapM_some, map_eq_pure_bind, Except.bind_eq_ok_iff]
      simp only [errorPayload_eq_ok_iff, Except.pure_eq_ok_iff, Option.mem_some_iff, forall_eq']
      constructor
      · rintro ⟨_, ⟨rfl, hgood⟩, rfl⟩
        use rfl
      · rintro ⟨rfl, hgood⟩
        use e

/-- The fields of an outcome are good. -/
def OutcomeGood (outcome : WorkerOutcomeV1.Fields φ) : Prop :=
  outcome.schemaVersion = 1 ∧ Identifier outcome.taskId ∧ Identifier outcome.jobId ∧
    Printable outcome.jobRevision ∧ Identifier outcome.attemptId ∧
    (∀ artifact ∈ outcome.artifacts, ArtifactGood artifact) ∧
    (outcome.artifacts.map WorkerArtifact.role).Nodup ∧
    (outcome.artifacts.map WorkerArtifact.relativePath).Nodup ∧
    (outcome.status = .failed ∨ outcome.status = .cancelled → outcome.artifacts = []) ∧
    workers.Storable outcome.metrics ∧
    (outcome.status = .succeeded → outcome.error = none) ∧
    (outcome.status ≠ .succeeded → outcome.error ≠ none) ∧
    (∀ e ∈ outcome.error, ErrorGood e) ∧
    ∀ e ∈ outcome.error, e.jobId ≠ none → e.jobId = some outcome.jobId

/-- The constructor of an outcome accepts exactly the outcomes whose fields are good. -/
theorem WorkerOutcomeV1.Fields.postInit_eq_ok_iff {outcome : WorkerOutcomeV1.Fields φ} :
  outcome.postInit = .ok () ↔ OutcomeGood outcome
  := by
  simp [postInit, OutcomeGood, Except.bind_eq_ok_iff, Except.exists_unit_iff,
    mapM_workerArtifact_eq_ok_iff, mapM_errorPayload_eq_ok_iff, and_assoc]

/-- An outcome is read back from its document. -/
theorem WorkerOutcomeV1.fromJson_of_same (outcome : WorkerOutcomeV1 φ)
    (h : PyValue.Same outcome.document w) :
  ∃ outcome', WorkerOutcomeV1.fromJson w = .ok outcome' ∧ outcome.Same outcome'
  := by
  obtain ⟨data, rfl, hexact, hfields⟩ := same_record outcomeFields rfl (by decide) h
  simp only [List.forall_mem_cons, same_str_iff, same_int_iff, same_arr_iff] at hfields
  obtain ⟨hversion, htaskId, hjobId, hrevision, hattemptId, hstatus, ⟨items, hitems, hartifacts⟩,
    hmetrics, herror, -⟩ := hfields
  obtain ⟨version, taskId, jobId, revision, attemptId, artifacts, roles, paths, publishes, metrics,
    success, failure, errorGood, errorJob⟩ :=
    WorkerOutcomeV1.Fields.postInit_eq_ok_iff.mp outcome.property
  obtain ⟨error', hreadError, hsameError⟩ := nullable_of_same
    (fun error he => errorPayloadOfJson_of_same "worker_outcome.error" (errorGood error he))
    (fun _ _ => not_same_record_null) herror
  have errorGood' : ∀ e ∈ error', ErrorGood e :=
    forall_of_rel (fun _ _ h hsame => h.of_same hsame) hsameError errorGood
  have errorJob' : ∀ e ∈ error', e.jobId ≠ none → e.jobId = some outcome.val.jobId :=
    forall_of_rel (fun _ _ h hsame => (ErrorPayload.Same.jobId_eq hsame).symm ▸ h) hsameError
      errorJob
  have haccepted : WorkerOutcomeV1.Fields.postInit
      { outcome.val with
        metrics := valueAt data "metrics"
        error := error' } = .ok () := by
    apply WorkerOutcomeV1.Fields.postInit_eq_ok_iff.mpr
    have hnone := eq_none_iff_of_rel hsameError
    exact ⟨version, taskId, jobId, revision, attemptId, artifacts, roles, paths, publishes,
      metrics.of_same hmetrics, fun h => hnone.mpr (success h), fun h => hnone.not.mpr (failure h),
      errorGood', errorJob'⟩
  use ⟨_, haccepted⟩
  constructor
  · simp only [fromJson, Contract.object_obj, ok_bind, Contract.requireExactFields_of hexact,
      hitems, Contract.arrayItems, hversion, htaskId, hjobId, hrevision, hattemptId, hstatus,
      Contract.schemaVersion_nat version, identifier_text taskId, identifier_text jobId,
      Contract.integer_nat (Nat.zero_le _) revision, identifier_text attemptId,
      enum_workerStatus, Contract.freezeObject_of (metrics.of_same hmetrics), hreadError,
      mapM_of_same (fun artifact ha => workerArtifactOfJson_of_same (artifacts artifact ha))
        hartifacts]
    apply Contract.acceptIf_of
  · exact ⟨rfl, hmetrics, hsameError⟩

end

end DrawingMachine.Document.Workers
