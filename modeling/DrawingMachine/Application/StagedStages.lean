import DrawingMachine.Application.StagedSubmission

/-!
# The stages of a staged submission

The disks that the requests of one bundle pass through, whatever crashes come between, and what
each function of the submission does on them.
-/

namespace DrawingMachine

open Durable

/-- A bundle as a client publishes it, and the request that submits it. -/
structure StagedSubmission (names : StagingNames) where
  request : SubmissionRequest
  bundle : StagedBundle
  envelope_hex : Sha256Hex request.envelope
  path_eq : request.path = ⟨request.arguments.role, .drop, bundle.name⟩
  name_canonical :
    parseBundleName bundle.name "stage" = .ok (request.arguments.role, request.requestId)
  lease_state : bundle.lease.val.state = .dispatchUncertain
  lease_requestId : bundle.lease.val.requestId = request.requestId
  lease_role : bundle.lease.val.role = request.arguments.role
  lease_payload : bundle.lease.val.payloadIdentity.val =
    ⟨bundle.device, bundle.inode, bundle.payload.length, names.sha256 bundle.payload⟩
  leaseSha256_hex : Sha256Hex bundle.leaseSha256
  payload_le : bundle.payload.length ≤ StagedArtifactStore.maxBytes request.arguments.role

namespace StagedSubmission

variable {names : StagingNames} (sub : StagedSubmission names)

/-- The role of a submission. -/
abbrev role : ClientDataRole := sub.request.arguments.role

/-- A moment in the boot in which the bundle was published, before its deadline. -/
structure Timely (k : StagingMoment) : Prop where
  boot : k.clock.boot = sub.bundle.lease.val.publisherBootId
  deadline : k.clock.now < sub.bundle.lease.val.deadlineMonotonicNs

/-- The identifier of the job of a submission. -/
def jobId : String := names.stagingJobId sub.request.requestId sub.role

/-- The artifact with the staged bytes. -/
def artifact : ArtifactRef.Fields :=
  StagedArtifactStore.inputArtifact sub.role sub.request.requestId (names.sha256 sub.bundle.payload)
    sub.bundle.payload.length

/-- The job of a submission. -/
def job : StagedJob where
  jobId := sub.jobId
  kind := sub.request.arguments.kind
  name := sub.request.arguments.jobName
  inputPath := ⟨sub.role, .admitted, sub.bundle.name⟩
  arguments := sub.request.arguments
  artifacts := [sub.artifact]

/-- An admission of the bundle of a submission. -/
structure Admits (state : StagingAdmissionState) (jobId : Option String)
    (a : StagingAdmissionRecordV1) : Prop where
  requestId : a.val.requestId = sub.request.requestId
  role : a.val.role = sub.role
  bundleName : a.val.bundleName = sub.bundle.name
  payloadIdentity : a.val.payloadIdentity = sub.bundle.lease.val.payloadIdentity
  sourceSha256 : a.val.sourceSha256 = sub.bundle.lease.val.sourceSha256
  leaseSha256 : a.val.leaseSha256 = sub.bundle.leaseSha256
  publisherBootId : a.val.publisherBootId = sub.bundle.lease.val.publisherBootId
  deadlineMonotonicNs : a.val.deadlineMonotonicNs = sub.bundle.lease.val.deadlineMonotonicNs
  state : a.val.state = state
  jobId : a.val.jobId = jobId

/-- The stages of a submission. -/
inductive Stage where
  | fresh | decoded | moved | claimed | staging | promoted | admitted | removed | consumed
  deriving DecidableEq, Repr

/-- The disk at a stage. -/
inductive At : Stage → StagingDisk → Prop
  /-- The bundle lies in the drop; its arguments may be bound. -/
  | fresh (envelope : Option String)
      (h : envelope = none ∨ envelope = some sub.request.envelope) :
      At .fresh ⟨envelope, none, some sub.bundle, none, .absent, none, [], false⟩
  /-- The request is registered. -/
  | decoded (a : StagingAdmissionRecordV1) (h : sub.Admits .requestDecoded none a) :
      At .decoded ⟨some sub.request.envelope, some a, some sub.bundle, none, .absent, none, [],
        false⟩
  /-- The bundle is moved, and not marked as claimed. -/
  | moved (a : StagingAdmissionRecordV1) (h : sub.Admits .requestDecoded none a) :
      At .moved ⟨some sub.request.envelope, some a, none, some sub.bundle, .absent, none, [],
        false⟩
  /-- The bundle is claimed. -/
  | claimed (a : StagingAdmissionRecordV1) (h : sub.Admits .claimed none a) :
      At .claimed ⟨some sub.request.envelope, some a, none, some sub.bundle, .absent, none, [],
        false⟩
  /-- The payload is being imported: the directory of the attempt is there. -/
  | staging (a : StagingAdmissionRecordV1) (attempt : StagedAttempt)
      (promoted : Option (List UInt8)) (h : sub.Admits .claimed none a)
      (hattempt : attempt ≠ .absent)
      (hpromoted : promoted = none ∨ promoted = some sub.bundle.payload) :
      At .staging ⟨some sub.request.envelope, some a, none, some sub.bundle, attempt, promoted, [],
        false⟩
  /-- The payload is imported, and there is no job. -/
  | promoted (a : StagingAdmissionRecordV1) (h : sub.Admits .claimed none a) :
      At .promoted ⟨some sub.request.envelope, some a, none, some sub.bundle, .absent,
        some sub.bundle.payload, [], false⟩
  /-- The job is stored. -/
  | admitted (a : StagingAdmissionRecordV1) (h : sub.Admits .durablyAdmitted (some sub.jobId) a) :
      At .admitted ⟨some sub.request.envelope, some a, none, some sub.bundle, .absent,
        some sub.bundle.payload, [sub.job], false⟩
  /-- The bundle is removed. -/
  | removed (a : StagingAdmissionRecordV1) (h : sub.Admits .durablyAdmitted (some sub.jobId) a) :
      At .removed ⟨some sub.request.envelope, some a, none, none, .absent,
        some sub.bundle.payload, [sub.job], false⟩
  /-- The bundle is consumed. -/
  | consumed (a : StagingAdmissionRecordV1) (h : sub.Admits .consumed (some sub.jobId) a) :
      At .consumed ⟨some sub.request.envelope, some a, none, none, .absent,
        some sub.bundle.payload, [sub.job], false⟩

/-- What a crash may leave. -/
def Left (d : StagingDisk) : Prop := ∃ stage, sub.At stage d

variable {sub}

/-- A disk at a stage may be left by a crash. -/
theorem At.left {stage : Stage} {d : StagingDisk} (h : sub.At stage d) : sub.Left d :=
  ⟨stage, h⟩

/-! ### Admissions -/

section

variable {a : StagingAdmissionRecordV1} {state : StagingAdmissionState} {jobId : Option String}

/-- The digest and the size of the source are those of the payload. -/
theorem source_eq (sub : StagedSubmission names) :
  sub.bundle.lease.val.sourceSha256 = names.sha256 sub.bundle.payload
  := by
  have h := sub.bundle.lease.property
  simp only [StagingLeaseV1.Fields.postInit, Except.unit_bind_eq_ok_iff, rejectIf_eq_ok_iff,
    not_or, not_not, ne_eq] at h
  have hpayload := congrArg PayloadIdentityV1.Fields.sha256 sub.lease_payload
  rw [← h.2.2.2.2.2.1.1, hpayload]

/-- The size of the payload of an admission. -/
theorem Admits.size_eq (h : sub.Admits state jobId a) :
  a.val.payloadIdentity.val.sizeBytes = sub.bundle.payload.length
  := by
  rw [h.payloadIdentity, sub.lease_payload]

/-- The artifact that an admission expects is the one with the staged bytes. -/
theorem Admits.expectedArtifact_eq (h : sub.Admits state jobId a) :
  StagedService.expectedArtifact a.val.role a = sub.artifact
  := by
  unfold StagedService.expectedArtifact
  rw [h.role, h.requestId, h.sourceSha256, source_eq, h.size_eq, Int.toNat_natCast]
  rfl

/-- The admission of a request is found by it. -/
theorem Admits.filter_eq (h : sub.Admits state jobId a) :
  (some a).filter (fun a => a.val.requestId = sub.request.requestId) = some a
  := by
  simp [Option.filter, h.requestId]

/-- The record of a decoded request. -/
theorem exists_decoded (sub : StagedSubmission names) {k : StagingMoment} :
  ∃ a : StagingAdmissionRecordV1,
    StagingAdmissionRecordV1.build (StagedWorld.decodedFields sub.request.requestId sub.role
      sub.bundle.name sub.bundle.lease sub.bundle.leaseSha256 k.utc) = .ok a ∧
    sub.Admits .requestDecoded none a
  := by
  have hlease := sub.bundle.lease.property
  simp only [StagingLeaseV1.Fields.postInit, Except.unit_bind_eq_ok_iff, rejectIf_eq_ok_iff,
    canonicalRequestId_eq_ok_iff, stagingDigest_eq_ok_iff, stagingPositive_eq_ok_iff,
    stagingBoot_eq_ok_iff, stagingNonnegative_eq_ok_iff, not_not, ne_eq, not_le] at hlease
  obtain ⟨-, hrequest, -, hsource, -, -, hboot, hpublished, hdeadline, -⟩ := hlease
  have hvalid : (StagedWorld.decodedFields sub.request.requestId sub.role sub.bundle.name
      sub.bundle.lease sub.bundle.leaseSha256 k.utc).Valid := by
    constructor
    · rfl
    · exact sub.lease_requestId ▸ hrequest
    · exact parseBundleName_eq_ok_iff.mp sub.name_canonical
    · exact hsource
    · exact sub.leaseSha256_hex
    · exact hboot
    · exact hpublished
    · exact hdeadline
    · exact Int.le_refl 0
    · rfl
    · rfl
    · exact k.utc_ne
  obtain ⟨a, ha⟩ := acceptIf_isOk_iff.mpr
    (StagingAdmissionRecordV1.Fields.postInit_eq_ok_iff.mpr hvalid)
  have hvalue := acceptIf_eq_ok_iff.mp ha
  refine ⟨a, ha, ?_⟩
  constructor
  all_goals rw [hvalue]; rfl

/-- The record after a change of state that the table allows. -/
theorem Admits.exists_advanced (h : sub.Admits state jobId a) (k : StagingMoment)
    (d : StagingDisk) (result : StagingAdmissionState) (jobId' : Option String)
    (hd : d.admission = some a)
    (hedge : StagingRow.edge state result = true)
    (hjob : StagingAdmissionRecordV1.Fields.checkJob
      { a.val with state := result, jobId := jobId' } = .ok ())
    (hresult : result ≠ .recoveryRequired) (hstate : state ≠ .recoveryRequired) :
  ∃ a', StagedRepository.advanced sub.request.requestId a.val.revision state result jobId' k.utc d
      = .ok a' ∧ sub.Admits result jobId' a'
  := by
  have hvalid := StagingAdmissionRecordV1.Fields.postInit_eq_ok_iff.mp a.property
  have hcode : a.val.recoveryCode = none := by
    have := StagingAdmissionRecordV1.Fields.checkRecovery_eq_ok_iff.mp hvalid.recovery
    by_contra hne
    exact hstate (h.state ▸ this.mpr hne)
  have hnew : StagingAdmissionRecordV1.Fields.Valid
      { a.val with
        state := result
        jobId := jobId'
        revision := a.val.revision + 1
        updatedAtUtc := k.utc } := by
    constructor
    · exact hvalid.schemaVersion
    · exact hvalid.requestId
    · exact hvalid.bundleName
    · exact hvalid.sourceSha256
    · exact hvalid.leaseSha256
    · exact hvalid.publisherBootId
    · exact hvalid.published
    · exact hvalid.deadline
    · have := hvalid.revision
      change 0 ≤ a.val.revision + 1
      omega
    · exact hjob
    · apply StagingAdmissionRecordV1.Fields.checkRecovery_eq_ok_iff.mpr
      simp [hcode, hresult]
    · exact hvalid.createdAtUtc
  obtain ⟨a', ha'⟩ := acceptIf_isOk_iff.mpr
    (StagingAdmissionRecordV1.Fields.postInit_eq_ok_iff.mpr hnew)
  have hvalue := acceptIf_eq_ok_iff.mp ha'
  use a'
  constructor
  · unfold StagedRepository.advanced StagingDisk.getStagingAdmission
    rw [hd, h.filter_eq]
    simp only [Except.unit_bind_eq_ok_iff, rejectIf_eq_ok_iff, SubmissionError.decoded_eq_ok_iff]
    exact ⟨by simp [h.state], by simp [hedge], ha'⟩
  · constructor
    all_goals rw [hvalue]
    · exact h.requestId
    · exact h.role
    · exact h.bundleName
    · exact h.payloadIdentity
    · exact h.sourceSha256
    · exact h.leaseSha256
    · exact h.publisherBootId
    · exact h.deadlineMonotonicNs

end

/-! ### The client data -/

section

variable {k : StagingMoment} {stage : Stage} {d : StagingDisk} {C : StagingDisk → Prop}

/-- The identifier of the request is canonical. -/
theorem canonicalRequestId_eq (sub : StagedSubmission names) :
  canonicalRequestId sub.request.requestId = .ok ()
  := by
  apply canonicalRequestId_eq_ok_iff.mpr
  apply matchBundle_request (parseBundleName_eq_ok_iff.mp sub.name_canonical)

/-- The bundle of a submission passes wherever it lies. -/
theorem validateServiceBundle_eq {phase : BundlePhase}
    (h : d.bundle phase sub.bundle.name = some sub.bundle) :
  ClientData.validateServiceBundle names sub.request.requestId sub.role
    ⟨sub.role, phase, sub.bundle.name⟩ phase d = .ok sub.bundle
  := by
  simp only [ClientData.validateServiceBundle, Except.bind_eq_ok_iff, Except.exists_unit_iff,
    rejectIf_eq_ok_iff, SubmissionError.decoded_eq_ok_iff]
  refine ⟨canonicalRequestId_eq sub, by simp, _, sub.name_canonical, by simp, ?_⟩
  rw [h]
  simp only [ClientData.checkBundle, Except.bind_eq_ok_iff, Except.exists_unit_iff,
    rejectIf_eq_ok_iff, Except.pure_eq_ok_iff]
  simp [sub.lease_state, sub.lease_requestId, sub.lease_role, sub.lease_payload]

/-- The bundle is found under its name. -/
theorem bundle_eq {phase : BundlePhase} (h : d.directory phase = some sub.bundle) :
  d.bundle phase sub.bundle.name = some sub.bundle
  := by
  simp [StagingDisk.bundle, h, Option.filter]

/-- The digest of the arguments is bound, and stays. -/
theorem At.bindRequestEnvelope (h : sub.At stage d) (hC : C d) :
  (ClientData.bindRequestEnvelope sub.request).Ensures d
    (OnReturn fun _ d' => sub.At stage d' ∧ d'.envelope = some sub.request.envelope ∧
      (stage ≠ .fresh → d' = d)) C
  := by
  have henvelope : d.envelope = none ∧ stage = .fresh ∨
      d.envelope = some sub.request.envelope := by
    cases h with
    | fresh envelope h =>
        rcases h with rfl | rfl
        · exact .inl ⟨rfl, rfl⟩
        · exact .inr rfl
    | _ => exact .inr rfl
  unfold ClientData.bindRequestEnvelope StagedRepository.bindStagingRequestEnvelope
  apply Ensures.inspect_bind
  · apply SubmissionError.decoded_eq_ok_iff.mpr (canonicalRequestId_eq sub)
  apply Ensures.bind (Q := fun bound d' => bound = sub.request.envelope ∧ sub.At stage d' ∧
    d'.envelope = some sub.request.envelope ∧ (stage ≠ .fresh → d' = d))
  · apply Ensures.inspect_bind
    · apply rejectIf_eq_ok_iff.mpr
      simp [sub.envelope_hex]
    apply Ensures.inspect_bind rfl
    rcases henvelope with ⟨hnone, rfl⟩ | hsome
    · rw [hnone]
      apply Ensures.write_bind hC
      apply Ensures.pure
      refine ⟨rfl, ?_, rfl, fun hne => absurd rfl hne⟩
      cases h with
      | fresh envelope h => exact .fresh _ (.inr rfl)
    · rw [hsome]
      apply Ensures.pure
      exact ⟨rfl, h, hsome, fun _ => rfl⟩
  · rintro bound d' ⟨rfl, hbound⟩
    apply Ensures.inspect
    simp only [rejectIf, ne_eq, not_true_eq_false, if_false]
    exact hbound

/-- A replay is about the bundle of its admission, when that lies where it belongs, or is gone
after the job was stored. -/
theorem Admits.validateExistingReplay_eq {state : StagingAdmissionState} {jobId : Option String}
    {a : StagingAdmissionRecordV1} (ha : sub.Admits state jobId a)
    (hstate : state ≠ .quarantined ∧ state ≠ .recoveryRequired)
    (h : d.directory (if state = .requestDecoded then .drop else .admitted) = some sub.bundle ∨
      (state ≠ .requestDecoded ∧ state ≠ .claimed ∧ d.drop = none ∧ d.admitted = none)) :
  ClientData.validateExistingReplay names a sub.role sub.request.path d = .ok ()
  := by
  have hphase : ClientData.replayPhase a =
      if state = .requestDecoded then .drop else .admitted := by
    rw [ClientData.replayPhase, ha.state]
  simp only [ClientData.validateExistingReplay, Except.bind_eq_ok_iff, Except.exists_unit_iff,
    rejectIf_eq_ok_iff]
  refine ⟨by simp [ha.role, ha.bundleName, sub.path_eq], by simp [ha.state, hstate], ?_⟩
  rw [hphase, ha.bundleName, ha.requestId]
  rcases h with h | ⟨hdecoded, hclaimed, hdrop, hadmitted⟩
  · rw [bundle_eq h]
    simp only [Except.bind_eq_ok_iff, rejectIf_eq_ok_iff]
    refine ⟨sub.bundle, validateServiceBundle_eq (bundle_eq h), ?_⟩
    simp [ha.payloadIdentity, ha.sourceSha256, ha.leaseSha256]
  · simp [StagingDisk.bundle, StagingDisk.directory, hdrop, hadmitted, hdecoded, hclaimed,
      ha.state, Option.filter]

/-- A request whose bundle has left the drop unclaimed is refused. -/
theorem At.refused_of_moved (h : sub.At .moved d) :
  ∃ a, d.getStagingAdmission sub.request.requestId = some a ∧
    ClientData.validateExistingReplay names a sub.role sub.request.path d =
      .error (.staging "replayed staging authority is missing before durable admission"
        "STAGING_STATE_INVALID")
  := by
  cases h with
  | moved a ha =>
      refine ⟨a, ha.filter_eq, ?_⟩
      simp [ClientData.validateExistingReplay, ha.role, ha.bundleName, sub.path_eq, ha.state,
        ClientData.replayPhase, StagingDisk.bundle, StagingDisk.directory, Option.filter, rejectIf,
        bind, Except.bind]

/-- The admission of a request that is found at a stage, besides the first two. -/
theorem At.existing (h : sub.At stage d)
    (hstage : stage ∈ [Stage.decoded, .claimed, .staging, .removed, .consumed]) :
  ∃ a, d.getStagingAdmission sub.request.requestId = some a ∧ d.admission = some a ∧
    ClientData.validateExistingReplay names a sub.role sub.request.path d = .ok ()
  := by
  cases h with
  | fresh => simp at hstage
  | moved => simp at hstage
  | promoted => simp at hstage
  | admitted => simp at hstage
  | decoded a ha =>
      exact ⟨a, ha.filter_eq, rfl, ha.validateExistingReplay_eq (by decide) (.inl rfl)⟩
  | claimed a ha =>
      exact ⟨a, ha.filter_eq, rfl, ha.validateExistingReplay_eq (by decide) (.inl rfl)⟩
  | staging a attempt promoted ha =>
      exact ⟨a, ha.filter_eq, rfl, ha.validateExistingReplay_eq (by decide) (.inl rfl)⟩
  | removed a ha =>
      exact ⟨a, ha.filter_eq, rfl, ha.validateExistingReplay_eq (by decide)
        (.inr ⟨by decide, by decide, rfl, rfl⟩)⟩
  | consumed a ha =>
      exact ⟨a, ha.filter_eq, rfl, ha.validateExistingReplay_eq (by decide)
        (.inr ⟨by decide, by decide, rfl, rfl⟩)⟩

/-- A request that was registered before is found again. -/
theorem At.registerDecoded_existing (h : sub.At stage d)
    (hstage : stage ∈ [Stage.decoded, .claimed, .staging, .removed, .consumed]) :
  (ClientData.registerDecoded names k sub.request).Ensures d
    (OnReturn fun a d' => d' = d ∧ d.admission = some a) C
  := by
  obtain ⟨a, hfound, hadmission, hvalid⟩ := h.existing hstage
  unfold ClientData.registerDecoded
  apply Ensures.inspect_bind rfl
  rw [hfound]
  apply Ensures.inspect_bind hvalid
  apply Ensures.pure
  exact ⟨rfl, hadmission⟩

/-- A request whose bundle has left the drop unclaimed is not registered. -/
theorem At.registerDecoded_moved (h : sub.At .moved d) :
  (ClientData.registerDecoded names k sub.request).Ensures d (OnRaise fun _ d' => d' = d) C
  := by
  obtain ⟨a, hfound, hinvalid⟩ := h.refused_of_moved
  unfold ClientData.registerDecoded
  apply Ensures.inspect_bind rfl
  rw [hfound]
  apply Ensures.raised_bind
  apply Ensures.inspect
  rw [hinvalid]
  rfl

/-- A new request is registered. -/
theorem At.registerDecoded_fresh (h : sub.At .fresh d)
    (henvelope : d.envelope = some sub.request.envelope) :
  (ClientData.registerDecoded names k sub.request).Ensures d
    (OnReturn fun a d' => sub.At .decoded d' ∧ d'.admission = some a) sub.Left
  := by
  have hleft := h.left
  cases h with
  | fresh envelope h =>
      obtain rfl : envelope = some sub.request.envelope := henvelope
      obtain ⟨a, hbuild, ha⟩ := exists_decoded sub (k := k)
      unfold ClientData.registerDecoded StagedRepository.registerDecodedStaging
      apply Ensures.inspect_bind rfl
      apply Ensures.inspect_bind
      · rw [sub.path_eq]
        apply validateServiceBundle_eq
        apply bundle_eq rfl
      apply Ensures.inspect_bind
      · rw [sub.path_eq]
        apply SubmissionError.decoded_eq_ok_iff.mpr hbuild
      apply Ensures.bind (Q := fun _ d' => d' = _)
      · apply Ensures.inspect_bind (a := ())
        · simp [ha.state, rejectIf]
        apply Ensures.write rfl hleft
      · rintro _ _ rfl
        apply Ensures.pure
        exact ⟨.decoded a ha, rfl⟩

/-- A request that is registered is claimed. -/
theorem At.claim_decoded (h : sub.At .decoded d) :
  (ClientData.claim names k sub.request).Ensures d
    (OnReturn fun _ d' => sub.At .claimed d') sub.Left
  := by
  have hleft := h.left
  cases h with
  | decoded a ha =>
      have hmoved := (At.moved a ha).left
      obtain ⟨a', hadvanced, ha'⟩ := ha.exists_advanced k ⟨some sub.request.envelope, some a,
        none, some sub.bundle, .absent, none, [], false⟩ .claimed none rfl rfl
        (by simp [StagingAdmissionRecordV1.Fields.checkJob]) (by decide) (by decide)
      unfold ClientData.claim ClientData.claimDecoded StagedRepository.markStagingClaimed
        StagedRepository.transitionStaging
      apply Ensures.inspect_bind rfl
      simp only [StagingDisk.getStagingAdmission, Option.filter, ha.requestId, ha.state,
        decide_true, if_true, reduceCtorEq, decide_false, Bool.false_eq_true, if_false]
      apply Ensures.inspect_bind
      · rw [sub.path_eq]
        apply validateServiceBundle_eq
        apply bundle_eq rfl
      apply Ensures.inspect_bind (a := ())
      · simp [ha.leaseSha256, ha.payloadIdentity, rejectIf]
      apply Ensures.write_bind hleft
      apply Ensures.inspect_bind hadvanced
      apply Ensures.write_bind hmoved
      apply Ensures.pure
      exact .claimed a' ha'

/-- A request that is claimed stays so. -/
theorem At.claim_claimed (h : sub.At stage d) (hstage : stage ∈ [Stage.claimed, .staging]) :
  (ClientData.claim names k sub.request).Ensures d (OnReturn fun _ d' => d' = d) C
  := by
  obtain ⟨a, hfound, hadmission, hvalid⟩ := h.existing (by revert hstage; cases stage <;> decide)
  have hstate : a.val.state = .claimed := by
    cases h with
    | claimed a' ha =>
        obtain rfl := Option.some.inj hadmission
        exact ha.state
    | staging a' attempt promoted ha =>
        obtain rfl := Option.some.inj hadmission
        exact ha.state
    | _ => simp at hstage
  unfold ClientData.claim
  apply Ensures.inspect_bind rfl
  simp only [hfound, Option.filter, hstate, decide_true, if_true]
  apply Ensures.inspect_bind hvalid
  apply Ensures.pure
  rfl

/-- The admission of a removed bundle is marked as consumed. -/
theorem Admits.markStagingConsumed {a : StagingAdmissionRecordV1}
    (ha : sub.Admits .durablyAdmitted (some sub.jobId) a) :
  (StagedRepository.markStagingConsumed k sub.request.requestId a.val.revision).Ensures
    ⟨some sub.request.envelope, some a, none, none, .absent, some sub.bundle.payload, [sub.job],
      false⟩
    (OnReturn fun _ d' => sub.At .consumed d') sub.Left
  := by
  have hremoved := (At.removed a ha).left
  obtain ⟨a', hadvanced, ha'⟩ := ha.exists_advanced k ⟨some sub.request.envelope, some a, none,
    none, .absent, some sub.bundle.payload, [sub.job], false⟩ .consumed (some sub.jobId) rfl rfl
    (by simp [StagingAdmissionRecordV1.Fields.checkJob, StagedSubmission.jobId,
      names.stagingJobId_ne, rejectIf]) (by decide) (by decide)
  unfold StagedRepository.markStagingConsumed StagedRepository.transitionStaging
  apply Ensures.inspect_bind rfl
  simp only [StagingDisk.getStagingAdmission, ha.filter_eq, Option.bind_some, ha.jobId]
  apply Ensures.inspect_bind hadvanced
  apply Ensures.write_bind hremoved
  apply Ensures.pure
  exact .consumed a' ha'

/-- The bundle of a request whose job is stored is consumed. -/
theorem At.consume (h : sub.At stage d) (hstage : stage ∈ [Stage.admitted, .removed])
    {a : StagingAdmissionRecordV1} (ha : d.admission = some a) :
  (ClientData.consume names k sub.request.requestId a.val.revision).Ensures d
    (OnReturn fun _ d' => sub.At .consumed d') sub.Left
  := by
  have hleft := h.left
  unfold ClientData.consume
  apply Ensures.inspect_bind rfl
  cases h with
  | admitted a' ha' =>
      obtain rfl := Option.some.inj ha
      simp only [StagingDisk.getStagingAdmission, ha'.filter_eq]
      apply Ensures.inspect_bind (a := ())
      · simp [ha'.state, rejectIf]
      apply Ensures.inspect_bind rfl
      rw [ha'.bundleName, bundle_eq rfl]
      apply Ensures.inspect_bind (a := ())
      · simp only [ClientData.checkConsumed, Except.bind_eq_ok_iff, rejectIf_eq_ok_iff]
        rw [ha'.requestId, ha'.role, ha'.bundleName]
        refine ⟨sub.bundle, validateServiceBundle_eq (bundle_eq rfl), ?_⟩
        simp [ha'.payloadIdentity, ha'.sourceSha256, ha'.leaseSha256]
      apply Ensures.write_bind hleft
      apply Ensures.bind ha'.markStagingConsumed
      intro _ _ hconsumed
      apply Ensures.pure hconsumed
  | removed a' ha' =>
      obtain rfl := Option.some.inj ha
      simp only [StagingDisk.getStagingAdmission, ha'.filter_eq]
      apply Ensures.inspect_bind (a := ())
      · simp [ha'.state, rejectIf]
      apply Ensures.inspect_bind rfl
      apply Ensures.bind ha'.markStagingConsumed
      intro _ _ hconsumed
      apply Ensures.pure hconsumed
  | _ => simp at hstage

end

/-! ### The import -/

section

variable {k : StagingMoment} {a : StagingAdmissionRecordV1} {C : StagingDisk → Prop}

/-- The disk while the payload of a claimed bundle is imported. -/
abbrev importing (sub : StagedSubmission names) (a : StagingAdmissionRecordV1)
    (attempt : StagedAttempt) (promoted : Option (List UInt8)) : StagingDisk :=
  ⟨some sub.request.envelope, some a, none, some sub.bundle, attempt, promoted, [], false⟩

/-- A crash may come at any time of the import. -/
theorem Admits.left_importing (ha : sub.Admits .claimed none a) (attempt : StagedAttempt)
    {promoted : Option (List UInt8)}
    (hpromoted : promoted = none ∨ promoted = some sub.bundle.payload) :
  sub.Left (sub.importing a attempt promoted)
  := by
  by_cases hattempt : attempt = .absent
  · subst hattempt
    rcases hpromoted with rfl | rfl
    · exact (At.claimed a ha).left
    · exact (At.promoted a ha).left
  · exact (At.staging a attempt promoted ha hattempt hpromoted).left

/-- The loop appends the whole file. -/
theorem Admits.copyBytes (ha : sub.Admits .claimed none a) (rounds : Nat)
    (source contents : List UInt8) (h : source.length ≤ rounds) :
  (StagedArtifactStore.copyBytes rounds source).Ensures (sub.importing a (.file contents) none)
    (OnReturn fun _ d' => d' = sub.importing a (.file (contents ++ source)) none) sub.Left
  := by
  induction rounds generalizing source contents with
  | zero =>
      obtain rfl := List.eq_nil_of_length_eq_zero (Nat.le_zero.mp h)
      rw [List.append_nil]
      unfold StagedArtifactStore.copyBytes
      apply Ensures.pure
      rfl
  | succ rounds ih =>
      unfold StagedArtifactStore.copyBytes
      split
      · next hread =>
          obtain rfl : source = [] := by
            simpa [StagedArtifactStore.chunkBytes] using hread
          rw [List.append_nil]
          apply Ensures.pure
          rfl
      · next hread =>
          apply Ensures.write_bind
          · apply ha.left_importing _ (.inl rfl)
          have hlength : (source.drop StagedArtifactStore.chunkBytes).length ≤ rounds := by
            have : source ≠ [] := by
              rintro rfl
              exact hread rfl
            have := List.length_pos_iff.mpr this
            rw [List.length_drop, StagedArtifactStore.chunkBytes]
            omega
          have happend : contents ++ source.take StagedArtifactStore.chunkBytes ++
              source.drop StagedArtifactStore.chunkBytes = contents ++ source := by
            rw [List.append_assoc, List.take_append_drop]
          have hrest := ih (source.drop StagedArtifactStore.chunkBytes)
            (contents ++ source.take StagedArtifactStore.chunkBytes) hlength
          rw [happend] at hrest
          exact hrest

/-- The payload is copied to the directory of the attempt. -/
theorem Admits.stageExternalFile (ha : sub.Admits .claimed none a) :
  (StagedArtifactStore.stageExternalFile sub.bundle.payload
      (StagedArtifactStore.maxBytes sub.role)).Ensures
    (sub.importing a .absent none)
    (OnReturn fun _ d' => d' = sub.importing a (.file sub.bundle.payload) none) sub.Left
  := by
  unfold StagedArtifactStore.stageExternalFile StagedArtifactStore.setAttempt
  apply Ensures.inspect_bind (a := ())
  · have := sub.payload_le
    simp only [Except.unit_bind_eq_ok_iff, rejectIf_eq_ok_iff]
    exact ⟨Nat.not_lt.mpr this, by simp⟩
  apply Ensures.write_bind (ha.left_importing _ (.inl rfl))
  apply Ensures.write_bind (ha.left_importing _ (.inl rfl))
  apply Ensures.write_bind (ha.left_importing _ (.inl rfl))
  have hcopy := ha.copyBytes sub.bundle.payload.length sub.bundle.payload [] (Nat.le_refl _)
  rw [List.nil_append] at hcopy
  exact hcopy

/-- The staged payload is promoted, and the directory of the attempt is removed. -/
theorem Admits.prepareAndPublish (ha : sub.Admits .claimed none a) :
  (StagedArtifactStore.prepareAndPublish names sub.role sub.request.requestId).Ensures
    (sub.importing a (.file sub.bundle.payload) none)
    (OnReturn fun artifact d' => artifact = sub.artifact ∧
      d' = sub.importing a .absent (some sub.bundle.payload)) sub.Left
  := by
  unfold StagedArtifactStore.prepareAndPublish
  apply Ensures.inspect_bind rfl
  apply Ensures.inspect_bind (a := ())
  · simp [rejectIf]
  apply Ensures.write_bind (ha.left_importing _ (.inl rfl))
  apply Ensures.bind (Q := fun _ d' => d' = sub.importing a .absent (some sub.bundle.payload))
  · unfold StagedArtifactStore.removeAttempt StagedArtifactStore.setAttempt
    apply Ensures.write_bind (ha.left_importing _ (.inr rfl))
    apply Ensures.write_bind (ha.left_importing _ (.inr rfl))
    apply Ensures.write rfl (ha.left_importing _ (.inr rfl))
  · rintro _ _ rfl
    apply Ensures.pure
    exact ⟨rfl, rfl⟩

/-- The payload of the claimed bundle. -/
theorem Admits.payloadPath_eq (ha : sub.Admits .claimed none a) (attempt : StagedAttempt)
    (promoted : Option (List UInt8)) :
  StagedService.payloadPath a (sub.importing a attempt promoted) = some sub.bundle.payload
  := by
  unfold StagedService.payloadPath
  rw [ha.bundleName, bundle_eq rfl]
  rfl

/-- Nothing is promoted yet. -/
theorem readBytes_importing (sub : StagedSubmission names) (expected : ArtifactRef.Fields)
    (maxBytes : Nat) (attempt : StagedAttempt) :
  StagedArtifactStore.readBytes names expected maxBytes (sub.importing a attempt none) =
    .error (.artifact "persisted artifact cannot be read safely" "ARTIFACT_PATH_INVALID")
  := rfl

/-- The payload is imported. -/
theorem Admits.importOrRecoverStaged (ha : sub.Admits .claimed none a) :
  (StagedService.importOrRecoverStaged names a).Ensures (sub.importing a .absent none)
    (OnReturn fun imported d' => imported.1 = sub.artifact ∧
      d' = sub.importing a .absent (some sub.bundle.payload)) sub.Left
  := by
  unfold StagedService.importOrRecoverStaged
  apply Ensures.raised_handle (Q := fun e d' =>
    e.code = some "ARTIFACT_PATH_INVALID" ∧ d' = sub.importing a .absent none)
  · apply Ensures.raised_bind
    apply Ensures.inspect
    rw [readBytes_importing]
    exact ⟨rfl, rfl⟩
  · rintro e _ ⟨hcode, rfl⟩
    simp only [hcode, ne_eq, not_true_eq_false, if_false]
    apply Ensures.inspect_bind rfl
    rw [ha.payloadPath_eq, ha.role, ha.requestId]
    apply Ensures.bind (Q := fun artifact d' => artifact = sub.artifact ∧
      d' = sub.importing a .absent (some sub.bundle.payload))
    · apply Ensures.bind ha.stageExternalFile
      rintro _ _ rfl
      apply ha.prepareAndPublish
    · rintro artifact _ ⟨rfl, rfl⟩
      apply Ensures.pure
      exact ⟨rfl, rfl⟩

/-- The payload is not imported while the directory of the attempt is there. -/
theorem Admits.importOrRecoverStaged_collision (ha : sub.Admits .claimed none a)
    {attempt : StagedAttempt} (hattempt : attempt ≠ .absent) :
  (StagedService.importOrRecoverStaged names a).Ensures (sub.importing a attempt none)
    (OnRaise fun _ d' => d' = sub.importing a attempt none) C
  := by
  unfold StagedService.importOrRecoverStaged
  apply Ensures.raised_handle (Q := fun e d' =>
    e.code = some "ARTIFACT_PATH_INVALID" ∧ d' = sub.importing a attempt none)
  · apply Ensures.raised_bind
    apply Ensures.inspect
    rw [readBytes_importing]
    exact ⟨rfl, rfl⟩
  · rintro e _ ⟨hcode, rfl⟩
    simp only [hcode, ne_eq, not_true_eq_false, if_false]
    apply Ensures.inspect_bind rfl
    rw [ha.payloadPath_eq, ha.role, ha.requestId]
    apply Ensures.raised_bind
    apply Ensures.raised_bind
    apply Ensures.raised_bind
    apply Ensures.inspect
    have hsize := Nat.not_lt.mpr sub.payload_le
    simp [rejectIf, hsize, hattempt, bind, Except.bind, OnRaise]

end

end StagedSubmission

end DrawingMachine
