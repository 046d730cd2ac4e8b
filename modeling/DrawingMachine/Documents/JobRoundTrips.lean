import DrawingMachine.Documents.Jobs
import DrawingMachine.Documents.Reading

/-!
# Reading the documents of jobs back

Every record of a job is read back from its document, whatever the order in which the keys of
the document and of the JSON in it come: the decoder checks the same conditions as the
constructor, and none of them depends on an order.
-/

namespace DrawingMachine.Document.Jobs

open PyValue

variable {φ : Type}

section

variable [PyFinite φ]

/-- Two blockers are equal, up to the order of keys in their details. -/
def JobBlocker.Same (blocker blocker' : JobBlocker φ) : Prop :=
  blocker'.val = { blocker.val with details := blocker'.val.details } ∧
    PyValue.Same blocker.val.details blocker'.val.details

/-- Two snapshots are equal, up to the order of keys in their JSON. -/
def ReadyToRunSnapshot.Same (snapshot snapshot' : ReadyToRunSnapshot φ) : Prop :=
  snapshot'.val =
      { snapshot.val with
        staticResult := snapshot'.val.staticResult
        sendPlan := snapshot'.val.sendPlan
        readiness := snapshot'.val.readiness
        planningParameters := snapshot'.val.planningParameters } ∧
    PyValue.Same snapshot.val.staticResult snapshot'.val.staticResult ∧
    PyValue.Same snapshot.val.sendPlan snapshot'.val.sendPlan ∧
    PyValue.Same snapshot.val.readiness snapshot'.val.readiness ∧
    PyValue.Same snapshot.val.planningParameters snapshot'.val.planningParameters

/-- Two jobs are equal, up to the order of keys in their JSON. -/
def JobRecord.Same (job job' : JobRecord φ) : Prop :=
  job'.val =
      { job.val with
        request := job'.val.request
        blocker := job'.val.blocker
        error := job'.val.error
        readySnapshot := job'.val.readySnapshot } ∧
    PyValue.Same job.val.request job'.val.request ∧
    Option.Rel JobBlocker.Same job.val.blocker job'.val.blocker ∧
    Option.Rel ErrorPayload.Same job.val.error job'.val.error ∧
    Option.Rel ReadyToRunSnapshot.Same job.val.readySnapshot job'.val.readySnapshot

end

/-! ### Artifacts and configurations -/

section

variable {w : PyValue φ}

/-- The constructor of an artifact accepts exactly the artifacts whose fields are good. -/
theorem ArtifactRef.Fields.postInit_eq_ok_iff {artifact : ArtifactRef.Fields} :
  artifact.postInit = .ok () ↔ artifact.role ≠ "" ∧
    (artifact.relativePath ≠ "" ∧ jobs.RelativePath artifact.relativePath) ∧
    Sha256Hex artifact.sha256 ∧ Printable artifact.sizeBytes ∧ artifact.mediaType ≠ ""
  := by
  simp [postInit]

/-- An artifact is read back from its document. -/
theorem ArtifactRef.fromJson_of_same (artifact : ArtifactRef)
    (h : PyValue.Same artifact.toJson w) :
  ArtifactRef.fromJson w = .ok artifact
  := by
  obtain ⟨data, rfl, hexact, hfields⟩ := same_record artifactFields rfl (by decide) h
  simp only [List.forall_mem_cons, same_str_iff, same_int_iff] at hfields
  obtain ⟨hrole, hpath, hsha, hsize, hmedia, -⟩ := hfields
  obtain ⟨role, ⟨path, canonical⟩, sha, size, media⟩ :=
    ArtifactRef.Fields.postInit_eq_ok_iff.mp artifact.property
  simp only [fromJson, Contract.object_obj, ok_bind, Contract.requireExactFields_of hexact, hrole,
    hpath, hsha, hsize, hmedia, Contract.string_text role, Contract.relative_text path canonical,
    Contract.digest_text sha, Contract.integer_nat (Nat.zero_le _) size,
    Contract.string_text media]
  apply Contract.acceptIf_of

/-- The constructor of a configuration accepts exactly those whose fields are good. -/
theorem ConfigSnapshot.Fields.postInit_eq_ok_iff {config : ConfigSnapshot.Fields} :
  config.postInit = .ok () ↔ config.machineProfile ≠ "" ∧ config.providerProfile ≠ "" ∧
    config.applicationSchemaVersion = 1 ∧ config.machineSchemaVersion = 1 ∧
    config.providerSchemaVersion = 1 ∧ Sha256Hex config.applicationDigest ∧
    Sha256Hex config.machineDigest ∧ Sha256Hex config.providerDigest
  := by
  simp [postInit]

/-- A configuration is read back from its document. -/
theorem ConfigSnapshot.fromJson_of_same (config : ConfigSnapshot)
    (h : PyValue.Same config.toJson w) :
  ConfigSnapshot.fromJson w = .ok config
  := by
  obtain ⟨data, rfl, hexact, hfields⟩ := same_record configFields rfl (by decide) h
  simp only [List.forall_mem_cons, same_str_iff, same_int_iff] at hfields
  obtain ⟨hmachine, hprovider, happlication, hmachineVersion, hproviderVersion, hdigest,
    hmachineDigest, hproviderDigest, -⟩ := hfields
  obtain ⟨machine, provider, application, machineVersion, providerVersion, digest,
    machineDigest, providerDigest⟩ := ConfigSnapshot.Fields.postInit_eq_ok_iff.mp config.property
  simp only [fromJson, Contract.object_obj, ok_bind, Contract.requireExactFields_of hexact,
    hmachine, hprovider, happlication, hmachineVersion, hproviderVersion, hdigest, hmachineDigest,
    hproviderDigest, Contract.string_text machine, Contract.string_text provider,
    Contract.schemaVersion_nat application, Contract.schemaVersion_nat machineVersion,
    Contract.schemaVersion_nat providerVersion, Contract.digest_text digest,
    Contract.digest_text machineDigest, Contract.digest_text providerDigest]
  apply Contract.acceptIf_of

end

/-! ### Blockers and errors -/

section

variable [PyFinite φ] {w : PyValue φ}

/-- The constructor of a blocker accepts exactly the blockers whose fields are good. -/
theorem JobBlocker.Fields.postInit_eq_ok_iff {blocker : JobBlocker.Fields φ} :
  blocker.postInit = .ok () ↔
    blocker.code ≠ "" ∧ blocker.message ≠ "" ∧ jobs.Storable blocker.details
  := by
  simp [postInit]

/-- A blocker is read back from its document. -/
theorem JobBlocker.fromJson_of_same (blocker : JobBlocker φ) (h : PyValue.Same blocker.toJson w) :
  ∃ blocker', JobBlocker.fromJson w = .ok blocker' ∧ blocker.Same blocker'
  := by
  obtain ⟨data, rfl, hexact, hfields⟩ := same_record blockerFields rfl (by decide) h
  simp only [List.forall_mem_cons, same_str_iff] at hfields
  obtain ⟨hcode, hcategory, hmessage, hdetails, -⟩ := hfields
  obtain ⟨code, message, details⟩ := JobBlocker.Fields.postInit_eq_ok_iff.mp blocker.property
  have details' := details.of_same hdetails
  have hread : JobBlocker.Fields.postInit { blocker.val with details := valueAt data "details" } =
      .ok () :=
    JobBlocker.Fields.postInit_eq_ok_iff.mpr ⟨code, message, details'⟩
  use ⟨_, hread⟩
  constructor
  · simp only [fromJson, Contract.object_obj, ok_bind, Contract.requireExactFields_of hexact,
      hcode, hcategory, hmessage, Contract.string_text code, enumeration_category,
      Contract.string_text message, Contract.freezeObject_of details']
    apply Contract.acceptIf_of
  · apply And.intro rfl hdetails

/-- The fields of an error are good. -/
def ErrorGood (error : ErrorPayload φ) : Prop :=
  error.code ≠ "" ∧ error.message ≠ "" ∧ jobs.Storable error.details ∧
    (∀ text ∈ error.requestId, text ≠ "") ∧ ∀ text ∈ error.jobId, text ≠ ""

/-- The checks of an error accept exactly the errors whose fields are good, as they are. -/
theorem cloneError_eq_ok_iff {error error' : ErrorPayload φ} {context : PyStr} :
  cloneError error context = .ok error' ↔ error' = error ∧ ErrorGood error
  := by
  simp only [cloneError, Except.bind_eq_ok_iff, Contract.string_eq_ok_iff, PyValue.str.injEq,
    PyStr.ofString_inj, nullable_string_eq_ok_iff, Contract.freezeObject_eq_ok_iff,
    Except.pure_eq_ok_iff]
  constructor
  · rintro ⟨_, ⟨rfl, code⟩, _, ⟨rfl, message⟩, _, ⟨rfl, details⟩, _, ⟨rfl, requestId⟩, _,
      ⟨rfl, jobId⟩, rfl⟩
    exact ⟨rfl, code, message, details, requestId, jobId⟩
  · rintro ⟨rfl, code, message, details, requestId, jobId⟩
    exact ⟨_, ⟨rfl, code⟩, _, ⟨rfl, message⟩, _, ⟨rfl, details⟩, _, ⟨rfl, requestId⟩, _,
      ⟨rfl, jobId⟩, rfl⟩

/-- An error is read back from its document. -/
theorem parseError_of_same {error : ErrorPayload φ} (hgood : ErrorGood error)
    (h : PyValue.Same (errorDocument error) w) :
  ∃ error', parseError w = .ok error' ∧ error.Same error'
  := by
  obtain ⟨data, rfl, hexact, hfields⟩ := same_record errorFields rfl (by decide) h
  simp only [List.forall_mem_cons, same_str_iff, same_bool_iff, same_optionalField_iff] at hfields
  obtain ⟨hcode, hcategory, hmessage, hretryable, hdetails, hrequestId, hjobId, -⟩ := hfields
  obtain ⟨code, message, details, requestId, jobId⟩ := hgood
  have details' := details.of_same hdetails
  use { error with details := valueAt data "details" }
  constructor
  · have hrequest : validateNullableString (optionalField error.requestId : PyValue φ)
        "error.request_id" = .ok error.requestId :=
      nullable_string_eq_ok_iff.mpr ⟨rfl, requestId⟩
    have hjob : validateNullableString (optionalField error.jobId : PyValue φ)
        "error.job_id" = .ok error.jobId :=
      nullable_string_eq_ok_iff.mpr ⟨rfl, jobId⟩
    simp only [parseError, Contract.object_obj, ok_bind, Contract.requireExactFields_of hexact,
      hcode, hcategory, hmessage, hretryable, Contract.string_text code, enumeration_category,
      Contract.string_text message, Contract.boolean_bool, Contract.freezeObject_of details',
      hrequestId, hrequest, hjobId, hjob]
    exact cloneError_eq_ok_iff.mpr ⟨rfl, code, message, details', requestId, jobId⟩
  · apply And.intro rfl hdetails

end

/-! ### Snapshots -/

section

variable {w : PyValue φ}

/-- No key of an object is forbidden exactly when the forbidden ones are none. -/
theorem forbiddenKeys_eq_nil_iff {keys : List PyStr} :
  forbiddenKeys keys = [] ↔ ∀ key ∈ keys, key ∉ hardwareAuthorityFields.map PyStr.ofString
  := by
  simp [forbiddenKeys, Contract.sortedNames_eq_nil_iff, List.filter_eq_nil_iff]

/-- No object in a value has a key that would give it authority over the hardware. -/
def harmless (value : PyValue φ) : Bool :=
  all (fun _ => true) (fun key => key ∉ hardwareAuthorityFields.map PyStr.ofString) value

mutual

/-- A value without authority over the hardware passes its check, and no other. -/
theorem rejectHardwareAuthority_eq_ok_iff : (value : PyValue φ) → ∀ {context : PyStr},
    rejectHardwareAuthority value context = .ok () ↔ harmless value = true
  | .null => by simp [rejectHardwareAuthority, harmless, all]
  | .bool _ => by simp [rejectHardwareAuthority, harmless, all]
  | .int _ => by simp [rejectHardwareAuthority, harmless, all]
  | .float _ => by simp [rejectHardwareAuthority, harmless, all]
  | .str _ => by simp [rejectHardwareAuthority, harmless, all]
  | .arr items => by
      simp only [rejectHardwareAuthority, harmless, all]
      apply rejectHardwareAuthorityItems_eq_ok_iff items
  | .obj entries => by
      simp only [rejectHardwareAuthority, harmless, all, allEntries_iff]
      split
      · rename_i h
        apply iff_of_false (by simp [refuseForbidden])
        intro hall
        apply h (forbiddenKeys_eq_nil_iff.mpr _)
        intro key hkey
        obtain ⟨entry, hentry, rfl⟩ := List.mem_map.mp hkey
        exact of_decide_eq_true (hall entry hentry).1
      · rename_i h
        have hkeys := forbiddenKeys_eq_nil_iff.mp (not_not.mp h)
        rw [rejectHardwareAuthorityEntries_eq_ok_iff entries]
        constructor
        · intro hvalues entry hentry
          apply And.intro (decide_eq_true (hkeys entry.1 (List.mem_map_of_mem hentry)))
          apply hvalues entry hentry
        · intro hall entry hentry
          apply (hall entry hentry).2

/-- Items without authority over the hardware pass their check, and no others. -/
theorem rejectHardwareAuthorityItems_eq_ok_iff : (items : List (PyValue φ)) →
    ∀ {context : PyStr}, rejectHardwareAuthorityItems items context = .ok () ↔
      allItems (fun _ => true) (fun key => key ∉ hardwareAuthorityFields.map PyStr.ofString)
        items = true
  | [] => by simp [rejectHardwareAuthorityItems, allItems]
  | item :: items => by
      simp only [rejectHardwareAuthorityItems, Except.unit_bind_eq_ok_iff,
        rejectHardwareAuthority_eq_ok_iff item, harmless, allItems, Bool.and_eq_true,
        rejectHardwareAuthorityItems_eq_ok_iff items]

/-- Values without authority over the hardware pass their check, and no others. -/
theorem rejectHardwareAuthorityEntries_eq_ok_iff : (entries : List (PyStr × PyValue φ)) →
    ∀ {context : PyStr}, rejectHardwareAuthorityEntries entries context = .ok () ↔
      ∀ entry ∈ entries, harmless entry.2 = true
  | [] => by simp [rejectHardwareAuthorityEntries]
  | (_, value) :: entries => by
      simp only [rejectHardwareAuthorityEntries, Except.unit_bind_eq_ok_iff,
        rejectHardwareAuthority_eq_ok_iff value, rejectHardwareAuthorityEntries_eq_ok_iff entries,
        List.forall_mem_cons]

end

/-- The same JSON in another order has no authority over the hardware either. -/
theorem harmless_of_same {value : PyValue φ} (h : harmless value = true)
    (hsame : PyValue.Same value w) :
  harmless w = true
  := by
  rw [harmless, ← all_of_same hsame]
  exact h

/-- A document with the fields of a snapshot has no field that is forbidden. -/
theorem forbiddenKeys_readyFields {data : List (PyStr × PyValue φ)}
    (h : HasExactly data readyFields) :
  forbiddenKeys (data.map Prod.fst) = []
  := by
  apply forbiddenKeys_eq_nil_iff.mpr
  intro key hkey hforbidden
  obtain ⟨entry, hentry, rfl⟩ := List.mem_map.mp hkey
  obtain ⟨field, hfield, heq⟩ := h.1 entry hentry
  obtain ⟨name, hname, hname'⟩ := List.mem_map.mp hforbidden
  obtain rfl := PyStr.ofString_injective (hname'.trans heq)
  have hdisjoint : ∀ name ∈ hardwareAuthorityFields, name ∉ readyFields := by decide
  apply hdisjoint name hname hfield

end

section

variable [PyFinite φ] {w : PyValue φ}

/-- The constructor of a snapshot accepts exactly the snapshots whose fields are good. -/
theorem ReadyToRunSnapshot.Fields.postInit_eq_ok_iff {snapshot : ReadyToRunSnapshot.Fields φ} :
  snapshot.postInit = .ok () ↔ snapshot.schemaVersion = 1 ∧ snapshot.jobId ≠ "" ∧
    (1 ≤ snapshot.jobRevision ∧ Printable snapshot.jobRevision) ∧
    snapshot.gcode.val.role = "gcode" ∧
    (snapshot.artifacts.map fun artifact => artifact.val.role).Nodup ∧
    "gcode" ∉ (snapshot.artifacts.map fun artifact => artifact.val.role) ∧
    jobs.Storable snapshot.staticResult ∧ jobs.Storable snapshot.sendPlan ∧
    jobs.Storable snapshot.readiness ∧ jobs.Storable snapshot.planningParameters ∧
    harmless snapshot.staticResult = true ∧ harmless snapshot.sendPlan = true ∧
    harmless snapshot.readiness = true ∧ harmless snapshot.planningParameters = true ∧
    snapshot.applicationVersion ≠ ""
  := by
  simp [postInit, rejectHardwareAuthority_eq_ok_iff]

/-- A snapshot is read back from its document. -/
theorem ReadyToRunSnapshot.fromJson_of_same (snapshot : ReadyToRunSnapshot φ)
    (h : PyValue.Same snapshot.toJson w) :
  ∃ snapshot', ReadyToRunSnapshot.fromJson w = .ok snapshot' ∧ snapshot.Same snapshot'
  := by
  obtain ⟨data, rfl, hexact, hfields⟩ := same_record readyFields rfl (by decide) h
  simp only [List.forall_mem_cons, same_str_iff, same_int_iff, same_arr_iff] at hfields
  obtain ⟨hversion, hjobId, hrevision, hgcode, ⟨items, hitems, hartifacts⟩, hresult, hplan,
    hreadiness, hconfig, hparameters, happlication, -⟩ := hfields
  obtain ⟨version, jobId, ⟨least, revision⟩, gcode, nodup, dedicated, result, plan, readiness,
    parameters, result', plan', readiness', parameters', application⟩ :=
    ReadyToRunSnapshot.Fields.postInit_eq_ok_iff.mp snapshot.property
  have hread : ReadyToRunSnapshot.Fields.postInit
      { snapshot.val with
        staticResult := valueAt data "static_result"
        sendPlan := valueAt data "send_plan"
        readiness := valueAt data "readiness"
        planningParameters := valueAt data "planning_parameters" } = .ok () :=
    ReadyToRunSnapshot.Fields.postInit_eq_ok_iff.mpr
      ⟨version, jobId, ⟨least, revision⟩, gcode, nodup, dedicated, result.of_same hresult,
        plan.of_same hplan, readiness.of_same hreadiness, parameters.of_same hparameters,
        harmless_of_same result' hresult, harmless_of_same plan' hplan,
        harmless_of_same readiness' hreadiness, harmless_of_same parameters' hparameters,
        application⟩
  use ⟨_, hread⟩
  constructor
  · simp only [fromJson, Contract.object_obj, ok_bind, forbiddenKeys_readyFields hexact, ne_eq,
      not_true_eq_false, Contract.requireExactFields_of hexact, hitems, Contract.arrayItems,
      mapM_of_same (fun artifact _ => artifact.fromJson_of_same) hartifacts, hversion, hjobId,
      hrevision, happlication,
      Contract.schemaVersion_nat version, Contract.string_text jobId,
      Contract.integer_nat least revision, snapshot.val.gcode.fromJson_of_same hgcode,
      Contract.freezeObject_of (result.of_same hresult),
      Contract.freezeObject_of (plan.of_same hplan),
      Contract.freezeObject_of (readiness.of_same hreadiness),
      snapshot.val.config.fromJson_of_same hconfig,
      Contract.freezeObject_of (parameters.of_same hparameters),
      Contract.string_text application]
    apply Contract.acceptIf_of
  · exact ⟨rfl, hresult, hplan, hreadiness, hparameters⟩

end

/-! ### Jobs -/

section

variable {w : PyValue φ}

/-- A job kind is read back from its name. -/
theorem parseEnum_jobKind {kind : JobKind} {field : PyStr} :
  parseEnum jobKinds JobKind.value (.str kind.value : PyValue φ) field = .ok kind
  := by
  apply Contract.enumeration_name
  · cases kind <;> decide
  · cases kind <;> decide

/-- A job state is read back from its name. -/
theorem parseEnum_jobState {state : JobState} {field : PyStr} :
  parseEnum allJobStates JobState.value (.str state.value : PyValue φ) field = .ok state
  := by
  apply Contract.enumeration_name
  · cases state <;> decide
  · cases state <;> decide

/-- A date and time is what its text is read as. -/
def IsoFormat.Reads (iso : IsoFormat) (instant : Timestamp) : Prop :=
  iso.isoformat instant ≠ "" ∧ iso.fromisoformat (iso.isoformat instant) = some (.aware instant)

/-- A date and time is read back from its text. -/
theorem parseDatetime_isoformat {iso : IsoFormat} {instant : Timestamp} {field : PyStr}
    (h : iso.Reads instant) :
  parseDatetime iso (.str (iso.isoformat instant) : PyValue φ) field = .ok instant
  := by
  rw [parseDatetime, validateString, Contract.string_text h.1, ok_bind, h.2]
  rfl

end

section

variable [PyFinite φ] {w : PyValue φ}

/-- The fields of an error that is equal to a good one are good. -/
theorem ErrorGood.of_same {error error' : ErrorPayload φ} (h : ErrorGood error)
    (hsame : error.Same error') :
  ErrorGood error'
  := by
  obtain ⟨code, message, details, requestId, jobId⟩ := h
  obtain ⟨heq, hdetails⟩ := hsame
  rw [heq]
  exact ⟨code, message, details.of_same hdetails, requestId, jobId⟩

/-- A snapshot that is equal to the one of a job is the one of the job. -/
theorem ReadyToRunSnapshot.Belongs.of_same {job : JobRecord.Fields φ}
    {snapshot snapshot' : ReadyToRunSnapshot φ} (h : snapshot.Belongs job)
    (hsame : snapshot.Same snapshot') :
  snapshot'.Belongs job
  := by
  obtain ⟨heq, -⟩ := hsame
  rw [Belongs, heq]
  exact h

/-- What a state carries, as far as it matters what is there. -/
def StateCarries (state : JobState) (blocker error readySnapshot : Bool)
    (retainReadySnapshotOnCancel retainMachineOutcomeSnapshot : Bool) : Prop :=
  decide (state = .blocked) = blocker ∧ decide (state = .failed) = error ∧
    let machineOutcome := retainMachineOutcomeSnapshot && state ∈ [.completed, .recoveryRequired]
    let allowed :=
      state = .readyToRun || machineOutcome || (retainReadySnapshotOnCancel && state = .cancelled)
    (((state = .readyToRun || machineOutcome) && !readySnapshot) ||
      (!allowed && readySnapshot)) = false

/-- A state carries what it has to, when its error is good and the parts that it has to carry
are there. -/
theorem validatedStatePayloads_eq_ok_iff {state : JobState} {blocker : Option (JobBlocker φ)}
    {error : Option (ErrorPayload φ)} {readySnapshot : Option (ReadyToRunSnapshot φ)}
    {context : PyStr} {onCancel onOutcome : Bool}
    {payloads : Option (JobBlocker φ) × Option (ErrorPayload φ) × Option (ReadyToRunSnapshot φ)} :
  validatedStatePayloads state blocker error readySnapshot context onCancel onOutcome =
      .ok payloads ↔
    payloads = (blocker, error, readySnapshot) ∧ (∀ e ∈ error, ErrorGood e) ∧
      StateCarries state blocker.isSome error.isSome readySnapshot.isSome onCancel onOutcome
  := by
  have herror : ∀ {error' : Option (ErrorPayload φ)},
      (error.mapM fun error => cloneError error (context ++ PyStr.ofString ".error")) = .ok error' ↔
        error' = error ∧ ∀ e ∈ error, ErrorGood e := by
    intro error'
    cases error with
    | none =>
        rw [Option.mapM_none, Except.pure_eq_ok_iff, eq_comm]
        simp
    | some e =>
        rw [Option.mapM_some, map_eq_pure_bind, Except.bind_eq_ok_iff]
        simp only [cloneError_eq_ok_iff, Except.pure_eq_ok_iff, Option.mem_some_iff, forall_eq']
        constructor
        · rintro ⟨_, ⟨rfl, hgood⟩, rfl⟩
          use rfl
        · rintro ⟨rfl, hgood⟩
          use e
  simp only [validatedStatePayloads, Except.bind_eq_ok_iff, herror, Except.exists_unit_iff,
    Contract.invalidIf_eq_ok_iff, Except.pure_eq_ok_iff, StateCarries, ne_eq, not_not,
    Bool.not_eq_true, Option.not_isSome]
  constructor
  · rintro ⟨_, ⟨rfl, hgood⟩, hblocker, hfailed, hsnapshot, rfl⟩
    exact ⟨rfl, hgood, hblocker, hfailed, hsnapshot⟩
  · rintro ⟨rfl, hgood, hblocker, hfailed, hsnapshot⟩
    exact ⟨_, ⟨rfl, hgood⟩, hblocker, hfailed, hsnapshot, rfl⟩

/-- The constructor of a job accepts exactly the jobs whose fields are good. -/
theorem JobRecord.Fields.postInit_eq_ok_iff {job : JobRecord.Fields φ} :
  job.postInit = .ok () ↔ job.schemaVersion = 1 ∧ job.jobId ≠ "" ∧ job.name ≠ "" ∧
    jobStates job.kind job.state = true ∧ Printable job.revision ∧ jobs.Storable job.request ∧
    ((∀ e ∈ job.error, ErrorGood e) ∧
      StateCarries job.state job.blocker.isSome job.error.isSome job.readySnapshot.isSome true
        (job.kind = .offlineWorkflow)) ∧
    (∀ e ∈ job.error, e.jobId = some job.jobId) ∧
    (∀ snapshot ∈ job.readySnapshot, snapshot.Belongs job) ∧ job.createdAt ≤ job.updatedAt
  := by
  simp [postInit, Except.bind_eq_ok_iff, Except.exists_unit_iff, validatedStatePayloads_eq_ok_iff]

/-- A job is read back from its document. -/
theorem JobRecord.fromJson_of_same {iso : IsoFormat} (job : JobRecord φ)
    (hcreated : iso.Reads job.val.createdAt) (hupdated : iso.Reads job.val.updatedAt)
    (h : PyValue.Same (job.document iso) w) :
  ∃ job', JobRecord.fromJson iso w = .ok job' ∧ job.Same job'
  := by
  obtain ⟨data, rfl, hexact, hfields⟩ := same_record jobFields rfl (by decide) h
  simp only [List.forall_mem_cons, same_str_iff, same_int_iff] at hfields
  obtain ⟨hversion, hjobId, hkind, hname, hstate, hrevision, hrequest, hconfig, hblocker, herror,
    hsnapshot, hcreatedAt, hupdatedAt, -⟩ := hfields
  obtain ⟨version, jobId, name, state, revision, request, ⟨errorGood, carries⟩, errorJob,
    snapshotJob, order⟩ := JobRecord.Fields.postInit_eq_ok_iff.mp job.property
  obtain ⟨blocker', hreadBlocker, hsameBlocker⟩ := nullable_of_same
    (fun blocker _ => blocker.fromJson_of_same) (fun _ _ => not_same_record_null) hblocker
  obtain ⟨error', hreadError, hsameError⟩ := nullable_of_same
    (fun error he => parseError_of_same (errorGood error he)) (fun _ _ => not_same_record_null)
    herror
  obtain ⟨snapshot', hreadSnapshot, hsameSnapshot⟩ := nullable_of_same
    (fun snapshot _ => snapshot.fromJson_of_same) (fun _ _ => not_same_record_null) hsnapshot
  have hread : JobRecord.Fields.postInit
      { job.val with
        request := valueAt data "request"
        blocker := blocker'
        error := error'
        readySnapshot := snapshot' } = .ok () := by
    apply JobRecord.Fields.postInit_eq_ok_iff.mpr
    have errorGood' : ∀ e ∈ error', ErrorGood e :=
      forall_of_rel (fun _ _ h hsame => h.of_same hsame) hsameError errorGood
    have errorJob' : ∀ e ∈ error', e.jobId = some job.val.jobId :=
      forall_of_rel (fun _ _ h hsame => hsame.jobId_eq.trans h) hsameError errorJob
    have snapshotJob' : ∀ snapshot ∈ snapshot', snapshot.Belongs job.val :=
      forall_of_rel (fun _ _ h hsame => h.of_same hsame) hsameSnapshot snapshotJob
    rw [isSome_of_rel hsameBlocker, isSome_of_rel hsameError, isSome_of_rel hsameSnapshot]
    exact ⟨version, jobId, name, state, revision, request.of_same hrequest, ⟨errorGood', carries⟩,
      errorJob', snapshotJob', order⟩
  use ⟨_, hread⟩
  constructor
  · simp only [fromJson, Contract.object_obj, ok_bind, Contract.requireExactFields_of hexact,
      hversion, hjobId, hkind, hname, hstate, hrevision, Contract.schemaVersion_nat version,
      Contract.string_text jobId, parseEnum_jobKind, Contract.string_text name,
      parseEnum_jobState, Contract.integer_nat (Nat.zero_le _) revision,
      Contract.freezeObject_of (request.of_same hrequest),
      job.val.config.fromJson_of_same hconfig, hreadBlocker, hreadError, hreadSnapshot, hcreatedAt,
      hupdatedAt, parseDatetime_isoformat hcreated, parseDatetime_isoformat hupdated]
    apply Contract.acceptIf_of
  · exact ⟨rfl, hrequest, hsameBlocker, hsameError, hsameSnapshot⟩

end

end DrawingMachine.Document.Jobs
