import DrawingMachine.Application.StagedStages

/-!
# The retry of a staged submission after crashes

A submission that crashes can be sent again, unless the crash came at the wrong time: after the
bundle is moved and before it is marked as claimed, or while the directory is there in which its
payload is staged. After such a crash no retry succeeds any more.
-/

namespace DrawingMachine

open Durable

namespace StagedSubmission

variable {names : StagingNames} {sub : StagedSubmission names} {k : StagingMoment}
  {stage : Stage} {d : StagingDisk} {C : StagingDisk → Prop}

/-! ### The job -/

/-- The claimed admission of a request without a job. -/
theorem Admits.requireClaimed_eq {a : StagingAdmissionRecordV1} (ha : sub.Admits .claimed none a)
    (attempt : StagedAttempt) (promoted : Option (List UInt8)) :
  StagedService.requireClaimed names sub.request (sub.importing a attempt promoted) = .ok a
  := by
  simp only [StagedService.requireClaimed, Except.bind_eq_ok_iff, Except.exists_unit_iff,
    rejectIf_eq_ok_iff]
  refine ⟨by simp [StagingDisk.getJob], ?_⟩
  rw [StagingDisk.getStagingAdmission, ha.filter_eq]
  simp only [Except.bind_eq_ok_iff, Except.exists_unit_iff, rejectIf_eq_ok_iff,
    Except.pure_eq_ok_iff, and_true]
  simp [ha.state, ha.role]

/-- The job that is made of the admission is that of the submission. -/
theorem Admits.newJob_eq {a : StagingAdmissionRecordV1} (ha : sub.Admits .claimed none a) :
  StagedService.newJob names sub.request a sub.artifact = sub.job
  := by
  unfold StagedService.newJob
  rw [ha.role, ha.bundleName]
  rfl

/-- The job is stored with the admission of the bundle. -/
theorem Admits.createJobWithStaging {a : StagingAdmissionRecordV1}
    (ha : sub.Admits .claimed none a) :
  (StagedRepository.createJobWithStaging k sub.job sub.request.requestId a.val.revision).Ensures
    (sub.importing a .absent (some sub.bundle.payload))
    (OnReturn fun _ d' => sub.At .admitted d') sub.Left
  := by
  obtain ⟨a', hadvanced, ha'⟩ := ha.exists_advanced k
    (sub.importing a .absent (some sub.bundle.payload)) .durablyAdmitted (some sub.jobId) rfl rfl
    (by simp [StagingAdmissionRecordV1.Fields.checkJob, StagedSubmission.jobId,
      names.stagingJobId_ne, rejectIf]) (by decide) (by decide)
  unfold StagedRepository.createJobWithStaging
  apply Ensures.inspect_bind
  · simp only [Except.bind_eq_ok_iff, Except.exists_unit_iff, rejectIf_eq_ok_iff]
    exact ⟨by simp [StagingDisk.getJob], hadvanced⟩
  · apply Ensures.write
    · exact .admitted a' ha'
    · apply ha.left_importing _ (.inr rfl)

/-- The chain stores the job of a claimed bundle. -/
theorem At.coordinatorSubmit (h : sub.At .claimed d) :
  (StagedService.coordinatorSubmit names k sub.request).Ensures d
    (OnReturn fun job d' => job = sub.job ∧ sub.At .admitted d') sub.Left
  := by
  cases h with
  | claimed a ha =>
      unfold StagedService.coordinatorSubmit
      apply Ensures.inspect_bind
      · apply ha.requireClaimed_eq
      apply Ensures.bind ha.importOrRecoverStaged
      rintro ⟨artifact, imported⟩ _ ⟨rfl, rfl⟩
      rw [ha.newJob_eq]
      apply Ensures.bind
      · apply Ensures.handle ha.createJobWithStaging
      · intro _ d' hadmitted
        apply Ensures.pure
        exact ⟨rfl, hadmitted⟩

/-- The directory of an attempt that a crash has left, without the promoted payload. -/
def Interrupted (sub : StagedSubmission names) (d : StagingDisk) : Prop :=
  sub.At .staging d ∧ d.promoted = none

/-- The chain does not import a payload while the directory of the attempt is there. -/
theorem Interrupted.coordinatorSubmit (h : sub.Interrupted d) :
  (StagedService.coordinatorSubmit names k sub.request).Ensures d (OnRaise fun _ d' => d' = d) C
  := by
  obtain ⟨h, hnone⟩ := h
  cases h with
  | staging a attempt promoted ha hattempt hpromoted =>
      obtain rfl : promoted = none := hnone
      unfold StagedService.coordinatorSubmit
      apply Ensures.inspect_bind
      · apply ha.requireClaimed_eq
      apply Ensures.raised_bind (ha.importOrRecoverStaged_collision hattempt)

/-- A request without a job gets one. -/
theorem At.submit (h : sub.At stage d) (hstage : stage ∈ [Stage.decoded, .claimed]) :
  (StagedService.submit names k sub.request).Ensures d
    (OnReturn fun job d' => job = sub.job ∧ sub.At .consumed d') sub.Left
  := by
  unfold StagedService.submit
  apply Ensures.bind (Q := fun _ d' => sub.At .claimed d')
  · cases stage with
    | decoded => apply h.claim_decoded
    | claimed =>
        apply (h.claim_claimed (by decide)).imp
        rintro _ _ rfl
        exact h
    | _ => simp at hstage
  · intro _ d₁ hclaimed
    apply Ensures.bind hclaimed.coordinatorSubmit
    rintro job d₂ ⟨rfl, hadmitted⟩
    obtain ⟨a, ha, hdurable⟩ : ∃ a, d₂.admission = some a ∧
        StagedService.requireDurable sub.request d₂ = .ok a := by
      cases hadmitted with
      | admitted a ha =>
          refine ⟨a, rfl, ?_⟩
          simp [StagedService.requireDurable, StagingDisk.getStagingAdmission, ha.filter_eq,
            ha.state, rejectIf]
    apply Ensures.inspect_bind hdurable
    apply Ensures.bind (hadmitted.consume (by decide) ha)
    intro _ d₃ hconsumed
    apply Ensures.pure
    exact ⟨rfl, hconsumed⟩

/-- A request whose payload is left half staged gets no job. -/
theorem Interrupted.submit (h : sub.Interrupted d) :
  (StagedService.submit names k sub.request).Ensures d (OnRaise fun _ d' => d' = d) C
  := by
  unfold StagedService.submit
  apply Ensures.bind (h.1.claim_claimed (by decide))
  rintro _ _ rfl
  apply Ensures.raised_bind h.coordinatorSubmit

/-! ### The replay -/

/-- The job of a submission is found again. -/
theorem Admits.exactStagingReplay_eq {state : StagingAdmissionState}
    {a : StagingAdmissionRecordV1} (ha : sub.Admits state (some sub.jobId) a)
    (hjobs : d.jobs = [sub.job]) :
  StagedService.exactStagingReplay sub.request a d = .ok sub.job
  := by
  have hfound : (a.val.jobId.bind d.getJob) = some sub.job := by
    simp [ha.jobId, StagingDisk.getJob, hjobs, StagedSubmission.job]
  have hinput : StagedService.hasExactInput sub.request.arguments.role a sub.job = true := by
    have hsize := ha.size_eq
    simp [StagedService.hasExactInput, StagedSubmission.job, artifact,
      StagedArtifactStore.inputArtifact, ha.sourceSha256, source_eq, hsize]
  unfold StagedService.exactStagingReplay
  rw [hfound]
  simp only [Except.bind_eq_ok_iff, Except.exists_unit_iff, rejectIf_eq_ok_iff,
    Except.pure_eq_ok_iff, and_true, hinput]
  simp [StagedSubmission.job, ha.bundleName]

/-- A request whose job was stored gets it again. -/
theorem At.replay (h : sub.At stage d) (hstage : stage ∈ [Stage.removed, .consumed])
    {a : StagingAdmissionRecordV1} (ha : d.admission = some a) :
  (StagedService.replay names k sub.request a).Ensures d
    (OnReturn fun job d' => job = sub.job ∧ sub.At .consumed d') sub.Left
  := by
  have hfull := h
  unfold StagedService.replay
  cases h with
  | removed a' ha' =>
      obtain rfl := Option.some.inj ha
      apply Ensures.inspect_bind (ha'.exactStagingReplay_eq rfl)
      simp only [ha'.state, if_true]
      apply Ensures.bind (hfull.consume (by decide) rfl)
      intro _ d' hconsumed
      apply Ensures.pure
      exact ⟨rfl, hconsumed⟩
  | consumed a' ha' =>
      obtain rfl := Option.some.inj ha
      apply Ensures.inspect_bind (ha'.exactStagingReplay_eq rfl)
      simp only [ha'.state, reduceCtorEq, if_false]
      apply Ensures.pure
      exact ⟨rfl, hfull⟩
  | _ => simp at hstage

/-! ### The reconciliation -/

section

variable {active : List String}

/-- The entry of the bundle of a submission. -/
abbrev entry (sub : StagedSubmission names) (phase : BundlePhase) : StagingReconciliation.Bundle :=
  ⟨sub.role, phase, ⟨sub.bundle.name, true, .ok sub.bundle.lease⟩⟩

/-- The lease of the bundle is read. -/
theorem readBundleLease_eq (sub : StagedSubmission names) (phase : BundlePhase) :
  StagingReconciliation.readBundleLease (sub.entry phase) = .ok sub.bundle.lease
  := by
  simp only [StagingReconciliation.readBundleLease, Except.bind_eq_ok_iff, Except.exists_unit_iff,
    rejectIf_eq_ok_iff, Except.pure_eq_ok_iff]
  exact ⟨_, sub.name_canonical, by simp, _, rfl, by simp [sub.lease_requestId, sub.lease_role],
    rfl⟩

/-- A new bundle is left before its deadline. -/
theorem Timely.decideEntry_fresh (hk : sub.Timely k) (phase : BundlePhase) (d : StagingDisk) :
  StagingReconciliation.decideEntry (d.input sub.role k active) [] (sub.entry phase) = .leave
  := by
  have hdeadline := not_le.mpr hk.deadline
  simp [StagingReconciliation.decideEntry, readBundleLease_eq, StagingReconciliation.admissionOf,
    StagingReconciliation.expire, StagingReconciliation.deadline, StagingDisk.input, hk.boot,
    hdeadline]

/-- The admission of the bundle is found. -/
theorem Admits.admissionOf_eq {state : StagingAdmissionState} {jobId : Option String}
    {a : StagingAdmissionRecordV1} (ha : sub.Admits state jobId a) (phase : BundlePhase) :
  StagingReconciliation.admissionOf [a] (sub.entry phase) = some a
  := by
  simp [StagingReconciliation.admissionOf, ha.role, ha.bundleName]

/-- The bundle is the one that was admitted. -/
theorem Admits.not_mismatched {state : StagingAdmissionState} {jobId : Option String}
    {a : StagingAdmissionRecordV1} (ha : sub.Admits state jobId a) :
  ¬ StagingReconciliation.Mismatched sub.bundle.lease a
  := by
  simp [StagingReconciliation.Mismatched, ha.requestId, ha.role, ha.payloadIdentity,
    ha.sourceSha256, sub.lease_requestId, sub.lease_role]

/-- A bundle whose request has no job is left before its deadline. -/
theorem Admits.decideEntry_pending {state : StagingAdmissionState} {jobId : Option String}
    {a : StagingAdmissionRecordV1} (ha : sub.Admits state jobId a)
    (hstate : state = .requestDecoded ∨ state = .claimed) (hk : sub.Timely k)
    (phase : BundlePhase) (d : StagingDisk) :
  StagingReconciliation.decideEntry (d.input sub.role k active) [a] (sub.entry phase) = .leave
  := by
  have hpending : StagingReconciliation.Pending a := by
    rw [StagingReconciliation.Pending, ha.state]
    exact hstate
  have hdeadline : k.clock.now < a.val.deadlineMonotonicNs :=
    ha.deadlineMonotonicNs ▸ hk.deadline
  have hboot : a.val.publisherBootId = k.clock.boot := by
    rw [ha.publisherBootId, hk.boot]
  simp [StagingReconciliation.decideEntry, readBundleLease_eq, ha.admissionOf_eq,
    StagingReconciliation.decideAdmitted, ha.not_mismatched, hpending, StagingDisk.input,
    hdeadline, hboot]

/-- A bundle in the admitted directory whose job is stored is consumed. -/
theorem Admits.decideEntry_durable {jobId : Option String} {a : StagingAdmissionRecordV1}
    (ha : sub.Admits .durablyAdmitted jobId a) (d : StagingDisk) :
  StagingReconciliation.decideEntry (d.input sub.role k active) [a] (sub.entry .admitted) =
    .consume a
  := by
  have hpending : ¬ StagingReconciliation.Pending a := by
    simp [StagingReconciliation.Pending, ha.state]
  simp [StagingReconciliation.decideEntry, readBundleLease_eq, ha.admissionOf_eq,
    StagingReconciliation.decideAdmitted, ha.not_mismatched, hpending, ha.state]

/-- What the reconciliation decides about the drop. -/
theorem At.decide_drop (h : sub.At stage d) (hk : sub.Timely k) (active : List String) :
  d.decide sub.role k active d.admission.toList .drop = .leave
  := by
  cases h with
  | fresh => apply hk.decideEntry_fresh
  | decoded a ha => apply ha.decideEntry_pending (.inl rfl) hk
  | _ => rfl

/-- What the reconciliation decides about the admitted directory. -/
theorem At.decide_admitted (h : sub.At stage d) (hstage : stage ≠ .admitted)
    (hk : sub.Timely k) (active : List String) :
  d.decide sub.role k active d.admission.toList .admitted = .leave
  := by
  cases h with
  | moved a ha => apply ha.decideEntry_pending (.inl rfl) hk
  | claimed a ha => apply ha.decideEntry_pending (.inr rfl) hk
  | staging a attempt promoted ha => apply ha.decideEntry_pending (.inr rfl) hk
  | promoted a ha => apply ha.decideEntry_pending (.inr rfl) hk
  | admitted => exact absurd rfl hstage
  | _ => rfl

/-- There is no marker. -/
theorem At.marker (h : sub.At stage d) : d.marker = false := by
  cases h <;> rfl

/-- A reconciliation leaves everything but a bundle whose job is stored. -/
theorem At.reconcile (h : sub.At stage d) (hstage : stage ≠ .admitted) (hk : sub.Timely k) :
  (StagedService.reconcile k sub.role active).Ensures d
    (OnReturn fun blocked d' => blocked = false ∧ d' = d) C
  := by
  unfold StagedService.reconcile
  apply Ensures.inspect_bind rfl
  apply Ensures.inspect_bind
  · rw [h.decide_drop hk active]
  apply Ensures.bind (Q := fun blocked d' => blocked = false ∧ d' = d)
  · apply Ensures.pure
    exact ⟨rfl, rfl⟩
  rintro _ d₁ ⟨rfl, hd₁⟩
  rw [hd₁]
  apply Ensures.inspect_bind
  · rw [h.decide_admitted hstage hk active]
  apply Ensures.bind (Q := fun blocked d' => blocked = false ∧ d' = d)
  · apply Ensures.pure
    exact ⟨rfl, rfl⟩
  rintro _ d₂ ⟨rfl, hd₂⟩
  rw [hd₂]
  apply Ensures.inspect_bind rfl
  apply Ensures.pure
  simp [OnReturn, h.marker]

/-- A reconciliation consumes a bundle whose job is stored. -/
theorem At.reconcile_admitted (h : sub.At .admitted d) (hk : sub.Timely k) :
  (StagedService.reconcile k sub.role active).Ensures d
    (OnReturn fun _ d' => sub.At .consumed d') sub.Left
  := by
  have hleft := h.left
  have hdrop := h.decide_drop hk active
  cases h with
  | admitted a ha =>
      unfold StagedService.reconcile
      apply Ensures.inspect_bind rfl
      apply Ensures.inspect_bind
      · rw [hdrop]
      apply Ensures.bind (Q := fun blocked d' => blocked = false ∧ d' = _)
      · apply Ensures.pure
        exact ⟨rfl, rfl⟩
      rintro _ _ ⟨rfl, rfl⟩
      apply Ensures.inspect_bind (a := .consume a)
      · apply congrArg
        apply ha.decideEntry_durable
      apply Ensures.bind (Q := fun _ d' => sub.At .consumed d')
      · unfold StagedService.perform
        apply Ensures.write_bind hleft
        rw [ha.requestId]
        apply Ensures.bind ha.markStagingConsumed
        intro _ _ hconsumed
        apply Ensures.pure hconsumed
      · intro _ _ hconsumed
        apply Ensures.inspect_bind rfl
        apply Ensures.pure hconsumed

end

/-! ### The command -/

/-- The state of the admission at a stage that has one. -/
def Stage.state : Stage → StagingAdmissionState
  | .fresh | .decoded | .moved => .requestDecoded
  | .claimed | .staging | .promoted => .claimed
  | .admitted | .removed => .durablyAdmitted
  | .consumed => .consumed

/-- The admission is in the state of the stage. -/
theorem At.state_eq (h : sub.At stage d) {a : StagingAdmissionRecordV1}
    (ha : d.admission = some a) :
  a.val.state = stage.state
  := by
  cases h with
  | fresh => cases ha
  | decoded a' ha' | moved a' ha' | claimed a' ha' | staging a' _ _ ha' | promoted a' ha'
  | admitted a' ha' | removed a' ha' | consumed a' ha' =>
      obtain rfl := Option.some.inj ha
      exact ha'.state

/-- The stages from which a request gets its job. -/
def Ready (stage : Stage) : Prop := stage ∈ [Stage.fresh, .decoded, .claimed, .removed, .consumed]

/-- No request comes upon a bundle whose job is stored. -/
theorem Ready.ne_admitted (h : Ready stage) : stage ≠ .admitted := by
  rintro rfl
  simp [Ready] at h

/-- A request gets its job. -/
theorem At.serveInner (h : sub.At stage d) (hstage : Ready stage) :
  (StagedService.serveInner names k sub.request).Ensures d
    (OnReturn fun job d' => job = sub.job ∧ sub.At .consumed d') sub.Left
  := by
  unfold StagedService.serveInner
  apply Ensures.bind (h.bindRequestEnvelope h.left)
  rintro _ d₁ ⟨h₁, henvelope, -⟩
  -- A fresh request is registered first.
  obtain ⟨stage', hstage', hregister⟩ : ∃ stage' : Stage,
      stage' ∈ [Stage.decoded, .claimed, .removed, .consumed] ∧
      (ClientData.registerDecoded names k sub.request).Ensures d₁
        (OnReturn fun a d' => sub.At stage' d' ∧ d'.admission = some a) sub.Left := by
    have hexisting : stage ∈ [Stage.decoded, .claimed, .removed, .consumed] →
        (ClientData.registerDecoded names k sub.request).Ensures d₁
          (OnReturn fun a d' => sub.At stage d' ∧ d'.admission = some a) sub.Left := by
      intro hmem
      apply (h₁.registerDecoded_existing (by revert hmem; cases stage <;> decide)).imp
      rintro a _ ⟨rfl, ha⟩
      exact ⟨h₁, ha⟩
    cases stage with
    | fresh => exact ⟨.decoded, by decide, h₁.registerDecoded_fresh henvelope⟩
    | decoded => exact ⟨_, by decide, hexisting (by decide)⟩
    | claimed => exact ⟨_, by decide, hexisting (by decide)⟩
    | removed => exact ⟨_, by decide, hexisting (by decide)⟩
    | consumed => exact ⟨_, by decide, hexisting (by decide)⟩
    | _ => simp [Ready] at hstage
  apply Ensures.bind hregister
  rintro a d₂ ⟨h₂, ha⟩
  have hstate := h₂.state_eq ha
  cases stage' with
  | decoded =>
      rw [if_neg (by rw [hstate]; decide)]
      apply h₂.submit (by decide)
  | claimed =>
      rw [if_neg (by rw [hstate]; decide)]
      apply h₂.submit (by decide)
  | removed =>
      rw [if_pos (by rw [hstate]; decide)]
      apply h₂.replay (by decide) ha
  | consumed =>
      rw [if_pos (by rw [hstate]; decide)]
      apply h₂.replay (by decide) ha
  | _ => simp at hstage'

/-- The disks from which no request gets a job any more. -/
def Stuck (sub : StagedSubmission names) (d : StagingDisk) : Prop :=
  sub.At .moved d ∨ sub.Interrupted d

/-- A stuck disk is at one of two stages. -/
theorem Stuck.at (h : sub.Stuck d) :
  ∃ stage : Stage, sub.At stage d ∧ stage ≠ .admitted ∧ stage ≠ .fresh
  := by
  rcases h with h | h
  · exact ⟨_, h, by decide, by decide⟩
  · exact ⟨_, h.1, by decide, by decide⟩

/-- A request on a stuck disk is refused, and changes nothing. -/
theorem Stuck.serveInner (h : sub.Stuck d) (hC : C d) :
  (StagedService.serveInner names k sub.request).Ensures d (OnRaise fun _ d' => d' = d) C
  := by
  obtain ⟨stage, hat, -, hfresh⟩ := h.at
  unfold StagedService.serveInner
  apply Ensures.bind (hat.bindRequestEnvelope hC)
  rintro _ d₁ ⟨-, -, hsame⟩
  obtain rfl := hsame hfresh
  rcases h with h | h
  · apply Ensures.raised_bind h.registerDecoded_moved
  · apply Ensures.bind (h.1.registerDecoded_existing (by decide))
    rintro a d₂ ⟨rfl, ha⟩
    rw [if_neg (by rw [h.1.state_eq ha]; decide)]
    apply h.submit

/-- The reconciliation before a command finds the role ready. -/
theorem At.beforeStagingCommand (h : sub.At stage d) (hstage : stage ≠ .admitted)
    (hk : sub.Timely k) :
  (StagedService.beforeStagingCommand k sub.request).Ensures d
    (OnReturn fun _ d' => d' = d) C
  := by
  unfold StagedService.beforeStagingCommand
  apply Ensures.bind (h.reconcile hstage hk)
  rintro _ _ ⟨rfl, rfl⟩
  apply Ensures.inspect
  rfl

/-- The reconciliation after a command changes nothing. -/
theorem At.afterStagingCommand (h : sub.At stage d) (hstage : stage ≠ .admitted)
    (hk : sub.Timely k) :
  (StagedService.afterStagingCommand k sub.request).Ensures d
    (OnReturn fun _ d' => d' = d) C
  := by
  unfold StagedService.afterStagingCommand
  apply Ensures.bind (h.reconcile hstage hk)
  rintro _ _ ⟨-, rfl⟩
  apply Ensures.pure
  rfl

/-- A command gets its job. -/
theorem At.serve (h : sub.At stage d) (hstage : Ready stage) (hk : sub.Timely k) :
  (StagedService.serve names k sub.request).Ensures d
    (OnReturn fun job d' => job = sub.job ∧ sub.At .consumed d') sub.Left
  := by
  have hne := hstage.ne_admitted
  unfold StagedService.serve
  apply Ensures.ensure (Q := OnReturn fun job d' => job = sub.job ∧ sub.At .consumed d')
  · apply Ensures.bind (h.beforeStagingCommand hne hk)
    rintro _ _ rfl
    apply h.serveInner hstage
  · intro r d' hr
    have hconsumed : sub.At .consumed d' := by
      cases r with
      | error e => cases hr
      | ok job => exact hr.2
    apply (hconsumed.afterStagingCommand (by decide) hk).imp
    rintro _ _ rfl
    exact hr

/-- A command on a stuck disk is refused, and changes nothing. -/
theorem Stuck.serve (h : sub.Stuck d) (hk : sub.Timely k) (hC : C d) :
  (StagedService.serve names k sub.request).Ensures d (OnRaise fun _ d' => d' = d) C
  := by
  obtain ⟨stage, hat, hne, -⟩ := h.at
  unfold StagedService.serve
  apply Ensures.ensure (Q := OnRaise fun _ d' => d' = d)
  · apply Ensures.bind (hat.beforeStagingCommand hne hk)
    rintro _ _ rfl
    apply h.serveInner hC
  · intro r d' hr
    obtain rfl : d' = d := by
      cases r with
      | error e => exact hr
      | ok job => cases hr
    apply (hat.afterStagingCommand hne hk).imp
    rintro _ _ rfl
    exact hr

/-! ### The start -/

/-- The artifact store reads the promoted payload. -/
theorem Admits.readBytes_promoted {a : StagingAdmissionRecordV1}
    (ha : sub.Admits .claimed none a) (attempt : StagedAttempt) :
  StagedArtifactStore.readBytes names (StagedService.expectedArtifact a.val.role a)
    (StagedArtifactStore.maxBytes a.val.role)
    (sub.importing a attempt (some sub.bundle.payload)) = .ok sub.bundle.payload
  := by
  have hsize := Nat.not_lt.mpr sub.payload_le
  rw [ha.expectedArtifact_eq, ha.role]
  simp only [StagedArtifactStore.readBytes, Except.bind_eq_ok_iff, Except.exists_unit_iff,
    rejectIf_eq_ok_iff, Except.pure_eq_ok_iff, and_true]
  exact ⟨hsize, by simp [artifact, StagedArtifactStore.inputArtifact]⟩

/-- What is promoted for a claimed bundle without a job is removed at the start. -/
theorem Admits.recoverUncommittedStagingPromotions {a : StagingAdmissionRecordV1}
    (ha : sub.Admits .claimed none a) (attempt : StagedAttempt)
    {promoted : Option (List UInt8)}
    (hpromoted : promoted = none ∨ promoted = some sub.bundle.payload)
    (hC : C (sub.importing a attempt promoted)) :
  (StagedService.recoverUncommittedStagingPromotions names).Ensures
    (sub.importing a attempt promoted)
    (OnReturn fun _ d' => d' = sub.importing a attempt none) C
  := by
  unfold StagedService.recoverUncommittedStagingPromotions
  apply Ensures.inspect_bind rfl
  simp only [Option.filter, ha.state, decide_true, if_true]
  apply Ensures.inspect_bind (a := ())
  · simp [StagingDisk.getJob, rejectIf]
  rcases hpromoted with rfl | rfl
  · apply Ensures.inspect_bind rfl
    rw [readBytes_importing]
    apply Ensures.pure
    rfl
  · apply Ensures.inspect_bind rfl
    rw [ha.readBytes_promoted]
    unfold StagedArtifactStore.discardPromotedBundle
    apply Ensures.inspect_bind rfl
    apply Ensures.inspect_bind (a := ())
    · rw [ha.expectedArtifact_eq]
      simp [artifact, StagedArtifactStore.inputArtifact, rejectIf]
    apply Ensures.write rfl hC

/-- A request that is not claimed is left at the start. -/
theorem recoverUncommittedStagingPromotions_of_ne
    (h : ∀ a, d.admission = some a → a.val.state ≠ .claimed) :
  (StagedService.recoverUncommittedStagingPromotions names).Ensures d
    (OnReturn fun _ d' => d' = d) C
  := by
  have hnone : (d.admission.filter fun a => a.val.state = .claimed) = none := by
    cases hadmission : d.admission with
    | none => rfl
    | some a => simp [h a hadmission]
  unfold StagedService.recoverUncommittedStagingPromotions
  apply Ensures.inspect_bind rfl
  rw [hnone]
  apply Ensures.pure
  rfl

/-- The stage after the initialisation of the chain. -/
def Stage.recovered : Stage → Stage
  | .promoted => .claimed
  | stage => stage

/-- The initialisation of the chain removes what is promoted without a job. -/
theorem At.recoverUncommittedStagingPromotions (h : sub.At stage d) (hC : C d) :
  (StagedService.recoverUncommittedStagingPromotions names).Ensures d
    (OnReturn fun _ d' => sub.At stage.recovered d' ∧ (stage = .staging → sub.Interrupted d')) C
  := by
  have hother (hstate : stage.state ≠ .claimed) :
      (StagedService.recoverUncommittedStagingPromotions names).Ensures d
        (OnReturn fun _ d' => sub.At stage.recovered d' ∧
          (stage = .staging → sub.Interrupted d')) C := by
    apply (recoverUncommittedStagingPromotions_of_ne
      (fun a ha => h.state_eq ha ▸ hstate)).imp
    rintro _ _ rfl
    cases stage with
    | claimed | staging | promoted => exact absurd rfl hstate
    | _ => exact ⟨h, nofun⟩
  cases h with
  | claimed a ha =>
      apply (ha.recoverUncommittedStagingPromotions .absent (.inl rfl) hC).imp
      rintro _ _ rfl
      exact ⟨.claimed a ha, nofun⟩
  | staging a attempt promoted ha hattempt hpromoted =>
      apply (ha.recoverUncommittedStagingPromotions attempt hpromoted hC).imp
      rintro _ _ rfl
      have hat := At.staging a attempt none ha hattempt (.inl rfl)
      exact ⟨hat, fun _ => ⟨hat, rfl⟩⟩
  | promoted a ha =>
      apply (ha.recoverUncommittedStagingPromotions .absent (.inr rfl) hC).imp
      rintro _ _ rfl
      exact ⟨.claimed a ha, nofun⟩
  | _ => apply hother (by decide)

/-- The stages of a service that runs. -/
def Idle (sub : StagedSubmission names) (d : StagingDisk) : Prop :=
  (∃ stage, Ready stage ∧ sub.At stage d) ∨ sub.Stuck d

/-- A start after a crash at the right time. -/
theorem At.restart (h : sub.At stage d) (hstage : stage ∉ [Stage.moved, .staging])
    (hk : sub.Timely k) :
  (StagedService.restart names k sub.role).Ensures d
    (OnReturn fun _ d' => ∃ stage, Ready stage ∧ sub.At stage d') sub.Left
  := by
  unfold StagedService.restart
  apply Ensures.bind (h.recoverUncommittedStagingPromotions h.left)
  rintro _ d₁ ⟨h₁, -⟩
  by_cases hadmitted : stage = .admitted
  · subst hadmitted
    apply Ensures.bind (h₁.reconcile_admitted hk)
    intro _ d₂ hconsumed
    apply Ensures.pure
    exact ⟨.consumed, by simp [Ready], hconsumed⟩
  · have hready : Ready stage.recovered := by
      revert hstage hadmitted
      cases stage <;> simp [Ready, Stage.recovered]
    apply Ensures.bind (h₁.reconcile hready.ne_admitted hk)
    rintro _ _ ⟨-, rfl⟩
    apply Ensures.pure
    exact ⟨_, hready, h₁⟩

/-- The disks of a crash at the wrong time. -/
def Lost (sub : StagedSubmission names) (d : StagingDisk) : Prop :=
  sub.At .moved d ∨ sub.At .staging d

/-- A start after a crash at the wrong time. -/
theorem Lost.restart (h : sub.Lost d) (hk : sub.Timely k) (hC : C d) :
  (StagedService.restart names k sub.role).Ensures d (OnReturn fun _ d' => sub.Stuck d') C
  := by
  unfold StagedService.restart
  rcases h with h | h
  · apply Ensures.bind (h.recoverUncommittedStagingPromotions hC)
    rintro _ d₁ ⟨h₁, -⟩
    apply Ensures.bind (h₁.reconcile (by decide) hk)
    rintro _ _ ⟨-, rfl⟩
    apply Ensures.pure
    exact .inl h₁
  · apply Ensures.bind (h.recoverUncommittedStagingPromotions hC)
    rintro _ d₁ ⟨h₁, hinterrupted⟩
    apply Ensures.bind (h₁.reconcile (by decide) hk)
    rintro _ _ ⟨-, rfl⟩
    apply Ensures.pure
    exact .inr (hinterrupted rfl)

/-! ### Histories of crashes -/

/-- The crash came at the wrong time: the bundle has left the drop and is not marked as claimed,
or the directory is there in which its payload is staged. -/
def CutShort (d : StagingDisk) : Prop :=
  (d.admission.map (fun a => a.val.state) = some .requestDecoded ∧ d.drop = none) ∨
    d.attempt ≠ .absent

instance (d : StagingDisk) : Decidable (CutShort d) := inferInstanceAs (Decidable (_ ∨ _))

/-- The stages of a crash at the wrong time. -/
theorem At.cutShort_iff (h : sub.At stage d) :
  CutShort d ↔ stage ∈ [Stage.moved, .staging]
  := by
  cases h with
  | fresh => simp [CutShort]
  | staging a attempt promoted ha hattempt => simp [CutShort, hattempt]
  | decoded a ha | moved a ha | claimed a ha | promoted a ha | admitted a ha | removed a ha
  | consumed a ha => simp [CutShort, ha.state]

/-- The service of a submission, at moments in its boot and before its deadline. -/
def crashing (sub : StagedSubmission names) :
    CrashingService { k // sub.Timely k } StagingDisk SubmissionError StagedJob where
  restart := fun k => StagedService.restart names k.val sub.role
  serve := fun k => StagedService.serve names k.val sub.request

/-- The disk of a bundle that its client has published. -/
def published (sub : StagedSubmission names) : StagingDisk :=
  ⟨none, none, some sub.bundle, none, .absent, none, [], false⟩

/-- A request after a start gets the one job of the submission, which has the staged bytes as
its input. -/
def Recovers (sub : StagedSubmission names) (d : StagingDisk) : Prop :=
  ∀ start again : { k // sub.Timely k }, (sub.crashing.restart start d).result = .ok () ∧
    ∃ job artifact,
      (sub.crashing.serve again (sub.crashing.restart start d).final).result = .ok job ∧
      (sub.crashing.serve again (sub.crashing.restart start d).final).final.jobs = [job] ∧
      (sub.crashing.serve again (sub.crashing.restart start d).final).final.promoted =
        some sub.bundle.payload ∧
      (d.jobs = [] ∨ d.jobs = [job]) ∧ job.artifacts = [artifact] ∧
      artifact.sha256 = names.sha256 sub.bundle.payload ∧
      artifact.sizeBytes = sub.bundle.payload.length

/-- No request gets a job any more, whatever happens. -/
def Refused (sub : StagedSubmission names) (d : StagingDisk) : Prop :=
  ∀ d', sub.crashing.History (.down, d) (.up, d') →
    ∀ k job, (sub.crashing.serve k d').result ≠ .ok job

/-- The jobs at a stage. -/
theorem At.jobs (h : sub.At stage d) : d.jobs = [] ∨ d.jobs = [sub.job] := by
  cases h with
  | admitted | removed | consumed => exact .inr rfl
  | _ => exact .inl rfl

/-- A stuck disk is lost. -/
theorem Stuck.lost (h : sub.Stuck d) : sub.Lost d := by
  rcases h with h | h
  · exact .inl h
  · exact .inr h.1

/-- A disk of a service that runs is at one of the stages. -/
theorem Idle.left (h : sub.Idle d) : sub.Left d := by
  rcases h with ⟨stage, -, h⟩ | h
  · exact h.left
  · obtain ⟨stage, h, -⟩ := h.at
    exact h.left

/-- A start comes through from every stage. -/
theorem Left.restart (h : sub.Left d) (hk : sub.Timely k) :
  (StagedService.restart names k sub.role).Ensures d (OnReturn fun _ d' => sub.Idle d') sub.Left
  := by
  obtain ⟨stage, hat⟩ := h
  by_cases hlost : stage ∈ [Stage.moved, .staging]
  · have hlost : sub.Lost d := by
      cases stage with
      | moved => exact .inl hat
      | staging => exact .inr hat
      | _ => simp at hlost
    apply (hlost.restart hk hat.left).imp
    intro _ d' hstuck
    exact .inr hstuck
  · apply (hat.restart hlost hk).imp
    intro _ d' hready
    exact .inl hready

/-- A command of a service that runs leaves one that can run on. -/
theorem Idle.serve (h : sub.Idle d) (hk : sub.Timely k) :
  (StagedService.serve names k sub.request).Ensures d (fun _ d' => sub.Idle d') sub.Left
  := by
  have hleft := h.left
  rcases h with ⟨stage, hready, hat⟩ | hstuck
  · apply (hat.serve hready hk).mono _ fun _ h => h
    intro r d' hr
    cases r with
    | error e => cases hr
    | ok job => exact .inl ⟨.consumed, by simp [Ready], hr.2⟩
  · apply (hstuck.serve hk hleft).mono _ fun _ h => h
    intro r d' hr
    cases r with
    | ok job => cases hr
    | error e =>
        obtain rfl : d' = d := hr
        exact .inr hstuck

/-- What a consumed submission has left. -/
theorem At.job_of_consumed (h : sub.At .consumed d) :
  d.jobs = [sub.job] ∧ d.promoted = some sub.bundle.payload
  := by
  cases h
  exact ⟨rfl, rfl⟩

/-- The disks of a history are at one of the stages. -/
theorem left_of_history {p : Power} (h : sub.crashing.History (.down, sub.published) (p, d)) :
  sub.Left d
  := by
  have hinvariant := CrashingService.History.invariant sub.Idle sub.Left ?_ ?_ h
    ⟨nofun, fun _ => (At.fresh none (.inl rfl)).left⟩
  · cases p with
    | up => exact (hinvariant.1 rfl).left
    | down => exact hinvariant.2 rfl
  · rintro ⟨k, hk⟩ d hleft
    apply (hleft.restart hk).mono _ fun _ h => h
    intro r d' hr
    cases r with
    | error e => cases hr
    | ok u => exact ⟨Idle.left hr, fun _ => hr⟩
  · rintro ⟨k, hk⟩ d hidle
    apply (hidle.serve hk).mono _ fun _ h => h
    intro r d' hr
    exact ⟨hr, hr.left⟩

/-- After a crash at the wrong time, no request gets a job any more. -/
theorem Lost.refused (h : sub.Lost d) : sub.Refused d := by
  intro d' hhistory
  have hinvariant := CrashingService.History.invariant sub.Stuck sub.Lost ?_ ?_ hhistory
    ⟨nofun, fun _ => h⟩
  · rintro ⟨k, hk⟩ job
    apply ((hinvariant.1 rfl).serve hk (C := fun _ => True) trivial).result_ne
  · rintro ⟨k, hk⟩ d hlost
    apply (hlost.restart hk hlost).mono _ fun _ h => h
    intro r d' hr
    cases r with
    | error e => cases hr
    | ok u => exact ⟨Stuck.lost hr, fun _ => hr⟩
  · rintro ⟨k, hk⟩ d hstuck
    apply (hstuck.serve hk hstuck.lost).mono _ fun _ h => h
    intro r d' hr
    cases r with
    | ok job => cases hr
    | error e =>
        obtain rfl : d' = d := hr
        exact ⟨hstuck, hstuck.lost⟩

/-- After a crash at the right time, the next request gets the one job. -/
theorem At.recovers (h : sub.At stage d) (hstage : stage ∉ [Stage.moved, .staging]) :
  sub.Recovers d
  := by
  rintro ⟨start, hstart⟩ ⟨again, hagain⟩
  have hrestart := h.restart hstage hstart
  obtain ⟨_, hresult, stage', hready, hat⟩ := hrestart.exists_result
  refine ⟨hresult, ?_⟩
  obtain ⟨job, hjob, rfl, hconsumed⟩ := (hat.serve hready hagain).exists_result
  obtain ⟨hjobs, hpromoted⟩ := hconsumed.job_of_consumed
  exact ⟨sub.job, sub.artifact, hjob, hjobs, hpromoted, h.jobs, rfl, rfl, rfl⟩

/-- There are moments before the deadline. -/
theorem exists_timely (sub : StagedSubmission names) : ∃ k, sub.Timely k := by
  have hlease := sub.bundle.lease.property
  simp only [StagingLeaseV1.Fields.postInit, Except.unit_bind_eq_ok_iff, rejectIf_eq_ok_iff,
    stagingBoot_eq_ok_iff, stagingNonnegative_eq_ok_iff, not_le] at hlease
  obtain ⟨-, -, -, -, -, -, hboot, hpublished, hdeadline, -⟩ := hlease
  use ⟨⟨_, _, hboot, hpublished⟩, "now", by decide⟩
  constructor
  · rfl
  · exact hdeadline

/-- No request gets a job after a crash at the wrong time. -/
theorem Left.refused (h : sub.Left d) (hcut : CutShort d) : sub.Refused d := by
  obtain ⟨stage, hat⟩ := h
  have hstage := hat.cutShort_iff.mp hcut
  apply Lost.refused
  cases stage with
  | moved => exact .inl hat
  | staging => exact .inr hat
  | _ => simp at hstage

/-- A request that gets a job after a start is not refused. -/
theorem Recovers.not_refused (h : sub.Recovers d) : ¬ sub.Refused d := by
  intro hrefused
  obtain ⟨k, hk⟩ := sub.exists_timely
  obtain ⟨hstart, job, artifact, hjob, -⟩ := h ⟨k, hk⟩ ⟨k, hk⟩
  apply hrefused _ _ ⟨k, hk⟩ job hjob
  apply Relation.ReflTransGen.single
  apply CrashingService.Step.started _ hstart

/-- Over every history of crashes, starts and requests, a request gets the one job with the
staged bytes after the next start exactly when the last crash did not come at the wrong time.
Otherwise no later request gets a job. -/
theorem recovers_iff {p : Power} (h : sub.crashing.History (.down, sub.published) (p, d)) :
  (sub.Recovers d ↔ ¬ CutShort d) ∧ (CutShort d → sub.Refused d)
  := by
  have hleft := left_of_history h
  refine ⟨⟨?_, ?_⟩, hleft.refused⟩
  · intro hrecovers hcut
    exact hrecovers.not_refused (hleft.refused hcut)
  · intro hcut
    obtain ⟨stage, hat⟩ := hleft
    apply hat.recovers
    rw [hat.cutShort_iff] at hcut
    exact hcut

/-! ### A crash at the wrong time -/

/-- The claim of a request may crash after the bundle is moved. -/
theorem At.claim_exposes (h : sub.At .decoded d) :
  (ClientData.claim names k sub.request).Exposes d (sub.At .moved)
  := by
  cases h with
  | decoded a ha =>
      obtain ⟨a', hadvanced, -⟩ := ha.exists_advanced k ⟨some sub.request.envelope, some a,
        none, some sub.bundle, .absent, none, [], false⟩ .claimed none rfl rfl
        (by simp [StagingAdmissionRecordV1.Fields.checkJob]) (by decide) (by decide)
      unfold ClientData.claim ClientData.claimDecoded StagedRepository.markStagingClaimed
        StagedRepository.transitionStaging
      apply Exposes.inspect_bind rfl
      simp only [StagingDisk.getStagingAdmission, Option.filter, ha.requestId, ha.state,
        decide_true, if_true, reduceCtorEq, decide_false, Bool.false_eq_true, if_false]
      apply Exposes.inspect_bind
      · rw [sub.path_eq]
        apply validateServiceBundle_eq
        apply bundle_eq rfl
      apply Exposes.inspect_bind (a := ())
      · simp [ha.leaseSha256, ha.payloadIdentity, rejectIf]
      apply Exposes.after_write
      apply Exposes.inspect_bind hadvanced
      apply Exposes.write_bind
      exact .moved a ha

/-- A new request may crash after its bundle is moved. -/
theorem At.serve_exposes (h : sub.At .fresh d) (hk : sub.Timely k) :
  (StagedService.serve names k sub.request).Exposes d (sub.At .moved)
  := by
  unfold StagedService.serve
  apply Exposes.ensure
  apply Exposes.bind_right (C := sub.Left) (h.beforeStagingCommand (by decide) hk)
  rintro _ _ rfl
  unfold StagedService.serveInner
  apply Exposes.bind_right (h.bindRequestEnvelope h.left)
  rintro _ d₁ ⟨h₁, henvelope, -⟩
  apply Exposes.bind_right (h₁.registerDecoded_fresh henvelope)
  rintro a d₂ ⟨h₂, ha⟩
  rw [if_neg (by rw [h₂.state_eq ha]; decide)]
  unfold StagedService.submit
  apply Exposes.bind_left h₂.claim_exposes

/-- Every submission can crash at the wrong time. -/
theorem exists_cutShort (k : { k // sub.Timely k }) :
  ∃ d, sub.crashing.History (.down, sub.published) (.down, d) ∧ CutShort d
  := by
  have hfresh : sub.At .fresh sub.published := .fresh none (.inl rfl)
  have hrestart : (sub.crashing.restart k).Ensures sub.published
      (OnReturn fun _ d' => d' = sub.published) sub.Left := by
    have hnone : ∀ a, sub.published.admission = some a → a.val.state ≠ .claimed := by
      intro a ha
      cases ha
    apply Ensures.bind (recoverUncommittedStagingPromotions_of_ne hnone)
    rintro _ _ rfl
    apply Ensures.bind (hfresh.reconcile (by decide) k.property)
    rintro _ _ ⟨-, rfl⟩
    apply Ensures.pure
    rfl
  obtain ⟨_, hresult, hfinal⟩ := hrestart.exists_result
  obtain ⟨d, hd, hmoved⟩ := hfresh.serve_exposes k.property
  refine ⟨d, ?_, hmoved.cutShort_iff.mpr (by decide)⟩
  apply Relation.ReflTransGen.tail (.single (.started k hresult))
  rw [hfinal]
  apply CrashingService.Step.crashed k
  apply List.mem_append_left _ hd

/-! ### A sample crash -/

/-- Digests and identifiers of the sample. -/
def sampleNames : StagingNames where
  sha256 := fun _ => Database.sampleDigest
  sha256_hex := fun _ => by decide +kernel
  stagingJobId := fun _ _ => "job"
  stagingJobId_ne := by simp

/-- The sample bundle. -/
def sampleBundle : StagedBundle where
  name := StagedWorld.sampleRecord.val.bundleName
  lease := StagedWorld.sampleLease
  leaseSha256 := Database.sampleDigest
  device := 0
  inode := 1
  payload := [0]

/-- The sample submission. -/
def sampleSubmission : StagedSubmission sampleNames where
  request := ⟨StagedWorld.sampleRequest, .gcodeCheck, ⟨.gcode, .drop, sampleBundle.name⟩,
    Database.sampleDigest⟩
  bundle := sampleBundle
  envelope_hex := by decide +kernel
  path_eq := rfl
  name_canonical := by decide +kernel
  lease_state := rfl
  lease_requestId := rfl
  lease_role := rfl
  lease_payload := rfl
  leaseSha256_hex := by decide +kernel
  payload_le := by decide

/-- A moment of the sample. -/
def sampleMoment : StagingMoment where
  clock := ⟨"boot", 0, by decide +kernel, by decide⟩
  utc := "now"
  utc_ne := by decide

/-- The moment is before the deadline. -/
def sampleTime : { k // sampleSubmission.Timely k } := ⟨sampleMoment, rfl, by decide⟩

/-- What becomes of the sample request after its crash. -/
theorem recovers_iff_of_sample :
  ∃ d, CutShort d ∧ (sampleSubmission.Recovers d ↔ ¬ CutShort d) ∧
    (CutShort d → sampleSubmission.Refused d)
  := by
  obtain ⟨d, hhistory, hcut⟩ := exists_cutShort sampleTime
  exact ⟨d, hcut, recovers_iff hhistory⟩

/-- After one crash of the sample request, every later request is refused. -/
theorem crash_can_be_final :
  ∃ d, sampleSubmission.crashing.History (.down, sampleSubmission.published) (.down, d) ∧
    ¬ sampleSubmission.Recovers d ∧ sampleSubmission.Refused d
  := by
  obtain ⟨d, hhistory, hcut⟩ := exists_cutShort sampleTime
  have hrefused := (left_of_history hhistory).refused hcut
  exact ⟨d, hhistory, fun hrecovers => hrecovers.not_refused hrefused, hrefused⟩

end StagedSubmission

end DrawingMachine
