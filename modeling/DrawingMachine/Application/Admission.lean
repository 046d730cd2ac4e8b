import DrawingMachine.Gcode.StreamProgram
import DrawingMachine.Persistence.Admissions

/-!
# Admissions of the execution chain

An admitted action is the capability to drive it, with the program and the snapshot it was
validated against and the challenge the operator consumed for it. A request that was
answered before is replayed: its stored response is given again, and as long as its
admission is not claimed also the admission it stored.
-/

namespace DrawingMachine

/-! ### Errors -/

/-- What a method of the chain raises: an error of the program, the signal that a failure
was cleaned up but could not be recorded, or any other exception. -/
inductive Raised where
  | error (e : ErrorPayload)
  | cleanedCoordinatorFatal
  | other
  deriving DecidableEq, Repr

/-- Whether a text occurs in another one. -/
def containsText (text part : String) : Bool :=
  text.toList.tails.any fun rest => part.toList.isPrefixOf rest

/-- The error the chain fails with: it is about a permission when its code says so. -/
def chainError (code message : String) : ErrorPayload where
  code := code
  category :=
    if "DENIED".toList.isSuffixOf code.toList || containsText code "AUTHORITY" then .permission
    else .hardware
  message := message
  retryable := false
  details := []

/-- Fail with an error of the chain. -/
def chainFail (code message : String) : Raised := .error (chainError code message)

/-- A step that fails with an error of the program, as a step of the chain. -/
def raising {α : Type} : Except ErrorPayload α → Except Raised α
  | .ok a => .ok a
  | .error e => .error (.error e)

/-- A step of the chain succeeds exactly when the step of the program does. -/
@[simp] theorem raising_eq_ok_iff {α : Type} {x : Except ErrorPayload α} {a : α} :
  raising x = .ok a ↔ x = .ok a
  := by
  cases x <;> simp [raising]

/-! ### Admitted actions -/

/-- The job, snapshot and program that were validated for an action. -/
structure ValidatedReadyAuthority where
  job : JobRecord
  snapshot : ReadyToRunSnapshot
  program : ValidatedStreamProgram

/-- The fields of an admitted action. -/
structure AdmittedMachineAction.Fields where
  capability : MachineAdmissionCapability
  program : ValidatedStreamProgram
  readySnapshot : ReadyToRunSnapshot
  response : MachineResponse
  approval : Option MachineApprovalChallenge := none

/-- The error of an admission that does not fit together. -/
def admissionInvalid (message : String) : ErrorPayload :=
  chainError "MACHINE_ADMISSION_INVALID" message

/-- The check of the approval of an admitted action. -/
def AdmittedMachineAction.Fields.checkApproval (a : AdmittedMachineAction.Fields)
    (approval : MachineApprovalChallenge) : Except ErrorPayload Unit := do
  rejectIf (approval.val.status ≠ .consumed)
    (admissionInvalid "approved admission requires one consumed challenge")
  rejectIf (approval.val.binding.val.action ≠ a.capability.action ∨
      some approval.val.binding.val.executionId ≠
        if a.capability.action = .recover then a.capability.predecessorExecutionId
        else some a.capability.executionId)
    (admissionInvalid "consumed challenge does not match admitted action authority")

/-- The checks of an admitted action: every action but the preparation of a session was
approved. -/
def AdmittedMachineAction.Fields.postInit (a : AdmittedMachineAction.Fields) :
    Except ErrorPayload Unit := do
  rejectIf (¬ (a.capability.action ≠ .prepareSession ↔ a.approval ≠ none))
    (admissionInvalid "approved admission must retain exactly one consumed challenge")
  checkSome a.approval a.checkApproval

/-- An admitted action. -/
abbrev AdmittedMachineAction :=
  { a : AdmittedMachineAction.Fields // a.postInit = .ok () }

/-- Build an admitted action. -/
def AdmittedMachineAction.build (a : AdmittedMachineAction.Fields) :
    Except ErrorPayload AdmittedMachineAction :=
  acceptIf AdmittedMachineAction.Fields.postInit a

/-- What a command is answered with: an action to drive, or only a response. -/
inductive MachineAdmissionResult where
  | admitted (a : AdmittedMachineAction)
  | result (response : MachineResponse) (deduplicated : Bool)

/-! ### Replays -/

/-- The capability a request stores, when it admits an action. A request with an admission
stores all of the fields. -/
def MachineRequestRecord.capability? (r : MachineRequestRecord) :
    Option MachineAdmissionCapability := do
  return {
    key := r.key
    admissionId := ← r.admissionId
    dispatchNonce := ← r.dispatchNonce
    executionId := ← r.executionId
    action := ← r.action.bind MachineAction.parse
    executionRevision := ← r.executionRevision
    serviceEpoch := ← r.serviceEpoch
    machineSessionEpoch := ← r.machineSessionEpoch
    recoveryDisposition := r.recoveryDisposition
    recoveryIntent := r.recoveryIntent
    predecessorExecutionId := r.predecessorExecutionId }

/-- An action that is parsed has the name it was parsed from. -/
theorem MachineAction.value_of_parse {name : String} {action : MachineAction}
    (h : MachineAction.parse name = some action) :
  action.value = name
  := by
  have hfound := List.find?_some h
  apply of_decide_eq_true hfound

/-- The capability a request stores matches it. -/
theorem MachineRequestRecord.matches_capability? {r : MachineRequestRecord}
    {c : MachineAdmissionCapability} (h : r.capability? = some c) :
  c.key = r.key ∧ c.Matches r
  := by
  simp only [capability?, Option.pure_def, Option.bind_eq_bind, Option.bind_eq_some_iff,
    Option.some.injEq] at h
  obtain ⟨admissionId, ha, dispatchNonce, hn, executionId, he, action, ⟨name, hname, hparse⟩,
    revision, hr, serviceEpoch, hs, machineSessionEpoch, hm, rfl⟩ := h
  refine ⟨rfl, ha, hn, he, ?_, hr, hs, hm, rfl, rfl, rfl⟩
  rw [hname, MachineAction.value_of_parse hparse]

namespace Database

variable (db : Database)

/-- The job with the given identifier. -/
def repositoryJob (jobId : String) : Except Raised JobRecord := do
  let job ← raising (db.getJob jobId)
  match job with
  | none => .error (chainFail "MACHINE_JOB_NOT_FOUND" "machine job does not exist")
  | some job => .ok job

/-- The challenge a replayed admission rests on. -/
def replayApproval (action : MachineAction) (response : MachineResponse) :
    Except Raised (Option MachineApprovalChallenge) :=
  if action = .prepareSession then .ok none
  else
    match response.approvalChallengeId with
    | none =>
        .error (chainFail "MACHINE_APPROVAL_EVIDENCE_MISSING"
          "admission replay lacks consumed challenge authority")
    | some challengeId => do
        let approval ← raising (db.getChallenge challengeId)
        rejectIf (¬ (approval.any fun a => a.val.status = .consumed) = true)
          (chainFail "MACHINE_APPROVAL_EVIDENCE_MISSING"
            "admission replay consumed challenge is unavailable")
        return approval

/-- Validate the job of a replayed admission again. The validation reads the artifact of
the job; `revalidate` is its answer. -/
def replayValidated
    (revalidate : JobRecord → ReadyToRunSnapshot → Except Raised ValidatedReadyAuthority)
    (executionId : Option String) : Except Raised ValidatedReadyAuthority :=
  match executionId.bind db.getExecution with
  | none =>
      .error (chainFail "MACHINE_ADMISSION_STALE" "deduplicated admission execution is missing")
  | some e => do
      let job ← db.repositoryJob e.val.jobId
      match job.val.readySnapshot with
      | none => .error .other
      | some snapshot => revalidate job snapshot

/-- Hand out the admission of a stored request again. -/
def replayAdmission
    (revalidate : JobRecord → ReadyToRunSnapshot → Except Raised ValidatedReadyAuthority)
    (record : MachineRequestRecord) (response : MachineResponse) :
    Except Raised MachineAdmissionResult := do
  let validated ← db.replayValidated revalidate record.executionId
  match record.capability? with
  | none => .error .other
  | some capability => do
      let approval ← db.replayApproval capability.action response
      let admitted ← raising (AdmittedMachineAction.build
        ⟨capability, validated.program, validated.snapshot, response, approval⟩)
      return .admitted admitted

/-- Answer a request that was answered before, from the record that was read for it. -/
def replay
    (revalidate : JobRecord → ReadyToRunSnapshot → Except Raised ValidatedReadyAuthority)
    (record : MachineRequestRecord) (command digest : String) :
    Except Raised MachineAdmissionResult := do
  rejectIf (record.command ≠ command ∨ record.argumentDigest ≠ digest)
    (chainFail "REQUEST_ID_CONFLICT" "request ID was already used with different arguments")
  match record.response with
  | none =>
      .error (chainFail "MACHINE_REQUEST_INCOMPLETE"
        "durable request admission has no completed response")
  | some response =>
      if record.admissionId = none ∨ record.claimedAt ≠ none then
        .ok (.result response.deduplicate true)
      else db.replayAdmission revalidate record response.deduplicate

variable {db}
  {revalidate : JobRecord → ReadyToRunSnapshot → Except Raised ValidatedReadyAuthority}
  {record : MachineRequestRecord} {command digest : String}

/-- The admission a replay hands out is the one the request stores. -/
theorem capability_of_replay {a : AdmittedMachineAction}
    (h : db.replay revalidate record command digest = .ok (.admitted a)) :
  a.val.capability.key = record.key ∧ a.val.capability.Matches record
  := by
  simp only [replay, Except.unit_bind_eq_ok_iff] at h
  obtain ⟨-, h⟩ := h
  split at h
  · cases h
  · split at h
    · cases h
    · simp only [replayAdmission, Except.bind_eq_ok_iff] at h
      obtain ⟨validated, -, h⟩ := h
      split at h
      · cases h
      · rename_i capability hcapability
        simp only [Except.bind_eq_ok_iff, raising_eq_ok_iff, Except.pure_eq_ok_iff,
          MachineAdmissionResult.admitted.injEq] at h
        obtain ⟨approval, -, admitted, hbuild, rfl⟩ := h
        rw [acceptIf_eq_ok_iff.mp hbuild]
        apply MachineRequestRecord.matches_capability? hcapability

/-- A replay with another command or other arguments is a conflict. -/
theorem replay_conflict (h : record.command ≠ command ∨ record.argumentDigest ≠ digest) :
  db.replay revalidate record command digest =
    .error (chainFail "REQUEST_ID_CONFLICT"
      "request ID was already used with different arguments")
  := by
  unfold replay rejectIf
  rw [if_pos h]
  rfl

/-! ### Exactly once -/

/-- A transaction that reserves a stored request with another command or other arguments
does not get to its end. -/
theorem foldlM_conflict {r r' : MachineRequestRecord} {calls : List Call}
    (hr : r ∈ db.requests) (hkey : r'.key = r.key)
    (h : r.command ≠ r'.command ∨ r.argumentDigest ≠ r'.argumentDigest)
    (hcalls : Call.reserveRequest r' ∈ calls) (db' : Database) :
  calls.foldlM Call.apply db ≠ .ok db'
  := by
  intro hrun
  induction calls generalizing db r with
  | nil => cases hcalls
  | cons c calls ih =>
      rw [List.foldlM_cons, Except.bind_eq_ok_iff] at hrun
      obtain ⟨db₁, hc, hrest⟩ := hrun
      obtain rfl | hcalls := List.mem_cons.mp hcalls
      · simp only [Call.apply, Except.bind_eq_ok_iff, Except.pure_eq_ok_iff] at hc
        obtain ⟨⟨found, db₂⟩, hreserved, -⟩ := hc
        have hget : db.getRequest r'.key = some r := Table.get?_eq_some_iff.mpr ⟨hr, hkey.symm⟩
        obtain ⟨-, ⟨-, hfound, hcommand, hdigest, -⟩ | ⟨-, htable, -⟩⟩ :=
          of_reserveRequest hreserved
        · obtain rfl : r = found.record := Option.some.inj (hget.symm.trans hfound)
          obtain h | h := h
          · apply h hcommand
          · apply h hdigest
        · apply (Table.insert?_eq_some_iff.mp htable).1 r hr hkey.symm
      · obtain ⟨r₁, hr₁, hfollows⟩ := (requests_of_call hc).follows hr
        apply ih hr₁ (hkey.trans hfollows.key.symm) _ hcalls hrest
        rw [hfollows.command, hfollows.argumentDigest]
        apply h

/-- The capability passes a claim in the database. -/
def Driveable (db : Database) (c : MachineAdmissionCapability) : Prop :=
  ∃ claimedAt claimed, db.claimRequest c claimedAt = .ok claimed

/-- A capability that passes a claim matches what is stored under its key, unclaimed. -/
theorem stored_of_driveable {c : MachineAdmissionCapability} (h : Driveable db c)
    {r : MachineRequestRecord} (hr : r ∈ db.requests) (hkey : r.key = c.key) :
  c.Matches r ∧ r.claimedAt = none
  := by
  obtain ⟨claimedAt, ⟨claimed, db'⟩, hclaim⟩ := h
  obtain ⟨r', hr', hkey', hmatches, hunclaimed, -⟩ := of_claimRequest hclaim
  rw [Table.eq_of_key_eq hr hr' (hkey.trans hkey'.symm)]
  refine ⟨hmatches, hunclaimed⟩

/-- What holds of a history of the repository: no admission is claimed twice; nothing that
was claimed or invalidated before, or whose execution had moved on, is claimed; a replay of
a request, from the record that was read for it at any earlier point, hands out the only
capability that can be driven for it, and none can be driven once one was claimed; and a
request that is used again with other arguments is rejected and changes nothing. -/
structure ExactlyOnce (db₀ : Database) (log : List Call) (db : Database) : Prop where
  once : ((claims log).map MachineAdmissionCapability.admissionId).Nodup
  unspent : ∀ db₁ before after, before ++ after = log → Trace db₀ before db₁ →
    Trace db₁ after db → ∀ c ∈ claims after, Unspent db₁ c
  replayed : ∀ db₁ before after, before ++ after = log → Trace db₀ before db₁ →
    Trace db₁ after db → ∀ r ∈ db₁.requests, ∀ revalidate command digest a,
      db.replay revalidate r command digest = .ok (.admitted a) →
      (∀ c, c.key = r.key → Driveable db c → c = a.val.capability) ∧
        ∀ c ∈ claims log, c.key = r.key →
          c = a.val.capability ∧ ¬ Driveable db a.val.capability
  conflict : ∀ r ∈ db.requests, ∀ command digest,
    r.command ≠ command ∨ r.argumentDigest ≠ digest →
      (∀ revalidate, db.replay revalidate r command digest =
        .error (chainFail "REQUEST_ID_CONFLICT"
          "request ID was already used with different arguments")) ∧
      ∀ tx : Transaction, ∀ r' : MachineRequestRecord, r'.key = r.key →
        r'.command = command → r'.argumentDigest = digest →
        Call.reserveRequest r' ∈ tx.calls → tx.run db = db

/-- Every history of committed and rolled-back transactions dispatches each admission at
most once. -/
theorem exactly_once_dispatch {db₀ db : Database} {log : List Call}
    (hempty : db₀.requests.rows = []) (h : History db₀ log db) :
  ExactlyOnce db₀ log db
  := by
  have hdistinct : Requests.Distinct db₀.requests := by
    intro a ha
    rw [Table.mem_def, hempty] at ha
    cases ha
  obtain ⟨-, hstored, hnodup⟩ := h.trace.claimed_once hdistinct
  constructor
  · apply hnodup
  · intro db₁ before after _ _ hafter c hc
    apply hafter.unspent_of_mem hc
  · intro db₁ before after _ _ hafter r hr revalidate command digest a hreplay
    obtain ⟨hkey, hmatches⟩ := capability_of_replay hreplay
    obtain ⟨r', hr', hfollows⟩ := hafter.follows hr
    have hmatches' := (hfollows.matches_iff _).mpr hmatches
    constructor
    · intro c hckey hdrive
      have hc := (stored_of_driveable hdrive hr' (hfollows.key.trans hckey.symm)).1
      apply hc.unique hmatches' (hckey.trans hkey.symm)
    · intro c hc hckey
      obtain ⟨r'', hr'', hkey'', hmatches'', hclaimed⟩ := hstored c hc
      obtain rfl : r'' = r' := by
        apply Table.eq_of_key_eq hr'' hr'
        rw [hkey'', hckey, hfollows.key]
      constructor
      · apply hmatches''.unique hmatches' (hckey.trans hkey.symm)
      · intro hdrive
        apply hclaimed
        apply (stored_of_driveable hdrive hr' (hfollows.key.trans hkey.symm)).2
  · intro r hr command digest hconflict
    constructor
    · intro revalidate
      apply replay_conflict hconflict
    · rintro tx r' hkey rfl rfl hcalls
      unfold Transaction.run
      split
      · rfl
      · next db' hrun => exact absurd hrun (foldlM_conflict hr hkey hconflict hcalls db')

/-! ### A sample history -/

/-- The capability of the samples. -/
def sampleCapability : MachineAdmissionCapability where
  key := ⟨1000, 1000, "request"⟩
  admissionId := "admission"
  dispatchNonce := "nonce"
  executionId := "a"
  action := .prepareSession
  executionRevision := 0
  serviceEpoch := "service"
  machineSessionEpoch := "session-a"

/-- The request of the samples. -/
def sampleRequest : MachineRequestRecord where
  key := sampleCapability.key
  requesterPid := 1
  command := "machine.prepare"
  argumentDigest := sampleDigest
  executionId := some "a"
  action := some "PREPARE_SESSION"
  admissionId := some "admission"
  dispatchNonce := some "nonce"
  response := none
  reservedAt := 0
  executionRevision := some 0
  serviceEpoch := some "service"
  machineSessionEpoch := some "session-a"

/-- The admission of the samples. -/
def sampleAdmission : Transaction where
  calls :=
    [ .createExecution (stage 0) (eventAt 0 (stage 0)) (auditAt 0 (stage 0)),
      .reserveRequest sampleRequest,
      .completeRequest sampleCapability.key
        (.admitted false "a" "job" 1 0 .preparingSession .prepareSession none) 0 ]
  commit := true

/-- The claim of the samples. -/
def sampleClaim : Transaction where
  calls := [.claimRequest sampleCapability 1]
  commit := true

/-- A session is admitted, and its admission is claimed once although it is presented
twice. -/
theorem exactly_once_dispatch_sample :
  ∃ log db, History sampleDatabase log db ∧ claims log = [sampleCapability] ∧
    ExactlyOnce sampleDatabase log db
  := by
  have hstart : History sampleDatabase [] sampleDatabase := History.start
  have hadmitted := hstart.transaction sampleAdmission
  have hclaimed := hadmitted.transaction sampleClaim
  have hagain := hclaimed.transaction sampleClaim
  refine ⟨_, _, hagain, ?_, exactly_once_dispatch rfl hagain⟩
  decide +kernel

end Database

end DrawingMachine
