import DrawingMachine.Service.JobAcknowledgements

/-!
# The agreement of the job coordinator with its submitters

An envelope that is acknowledged is not changed any more, and one that is abandoned stays so; a
call that has ended was told what its envelope says. With the invariant of the envelopes this
gives what a client may conclude from the end of its call, in every run in which a rejected
command finds its job at the revision that was read before it. Without that, a client can be told
that its command was committed when an execution of the machine changed the job meanwhile.
-/

namespace DrawingMachine

namespace JobCoordinator

variable {timeout : Int} {s s' : State} {e : Nat}

/-! ### The ends of an envelope -/

/-- An envelope that is changed by a step, when it is not the given one or is left. -/
theorem envelopes_update (s : State) {e e' : Nat} {envelope : Envelope}
    (h : e = e' → envelope = s.envelopes e) :
  (s.update e' envelope).envelopes e = s.envelopes e
  := by
  by_cases heq : e = e'
  · subst heq
    rw [envelopes_update_self, h rfl]
  · apply envelopes_update_of_ne s _ heq

/-- An acknowledged envelope is not changed any more. -/
theorem Step.acknowledged_eq (h : Step timeout s s') (hl : Lives s) (he : e < s.count)
    (hstate : (s.envelopes e).state = .acknowledged) :
  s'.envelopes e = s.envelopes e
  := by
  cases h with
  | submit i command deadline h haccepting =>
      apply Function.update_of_ne
      omega
  | abandon i e' h =>
      apply envelopes_update s
      rintro rfl
      simp [Envelope.abandonUnacknowledged, hstate]
  | check e' before current target h =>
      apply envelopes_update s
      rintro rfl
      simp [Envelope.commitAllowed, hstate]
  | checkCommit e' before current target h =>
      apply envelopes_update s
      rintro rfl
      simp [Envelope.commitAllowed, hstate]
  | acknowledge e' job h =>
      apply envelopes_update s
      rintro rfl
      exact absurd hstate (hl.busy e _ h).2.2
  | rejectedUnchanged e' before error h hsame =>
      apply envelopes_update s
      rintro rfl
      exact absurd hstate (hl.busy e _ h).2.state
  | completeMissing e' error h hjob => exact absurd (hl.busy e' _ h).2 id
  | complete e' job error h hjob => exact absurd (hl.busy e' _ h).2 id
  | _ => rfl

/-- The state of an envelope that is changed by a step, and stays in the state. -/
theorem state_update (s : State) {e e' : Nat} {envelope : Envelope}
    (h : e = e' → envelope.state = (s.envelopes e).state) :
  ((s.update e' envelope).envelopes e).state = (s.envelopes e).state
  := by
  by_cases heq : e = e'
  · subst heq
    rw [envelopes_update_self, h rfl]
  · rw [envelopes_update_of_ne s _ heq]

/-- An abandoned envelope stays abandoned. -/
theorem Step.abandoned_eq (h : Step timeout s s') (hl : Lives s) (he : e < s.count)
    (hstate : (s.envelopes e).state = .abandoned) :
  (s'.envelopes e).state = .abandoned
  := by
  rw [← hstate]
  cases h with
  | submit i command deadline h haccepting =>
      apply congrArg Envelope.state
      apply Function.update_of_ne
      omega
  | abandon i e' h =>
      apply state_update s
      rintro rfl
      simp [Envelope.abandonUnacknowledged, hstate]
  | check e' before current target h =>
      apply state_update s
      rintro rfl
      simp [Envelope.commitAllowed, hstate]
  | checkCommit e' before current target h =>
      apply state_update s
      rintro rfl
      simp [Envelope.commitAllowed, hstate]
  | acknowledge e' job h =>
      apply state_update s
      rintro rfl
      simp [Envelope.acknowledge, hstate]
  | rejectedUnchanged e' before error h hsame =>
      apply state_update s
      rintro rfl
      simp [Envelope.acknowledge, hstate]
  | completeMissing e' error h hjob => exact absurd (hl.busy e' _ h).2 id
  | complete e' job error h hjob => exact absurd (hl.busy e' _ h).2 id
  | _ => rfl

/-! ### The ends of a call -/

/-- What a call was told is what its envelope says. -/
def Told (s : State) : Caller → Prop
  | .timedOut e => e < s.count ∧ (s.envelopes e).state = .abandoned
  | .answered e => e < s.count ∧ (s.envelopes e).state = .acknowledged
  | .raised e error =>
      e < s.count ∧ (s.envelopes e).state = .acknowledged ∧ (s.envelopes e).error = some error
  | .returned e job =>
      e < s.count ∧ (s.envelopes e).state = .acknowledged ∧ (s.envelopes e).error = none ∧
        (s.envelopes e).result = some job
  | .waiting e => e < s.count
  | .expired e => e < s.count
  | _ => True

/-- The submitted envelopes stay. -/
theorem Step.count_le (h : Step timeout s s') :
  s.count ≤ s'.count
  := by
  cases h with
  | submit i command deadline h haccepting => apply Nat.le_succ
  | _ => exact Nat.le_refl _

/-- What a call was told stays true. -/
theorem Told.step {caller : Caller} (ht : Told s caller) (hl : Lives s)
    (h : Step timeout s s') :
  Told s' caller
  := by
  have hle := h.count_le
  cases caller with
  | timedOut e =>
      obtain ⟨hlt, hstate⟩ := ht
      exact ⟨Nat.lt_of_lt_of_le hlt hle, h.abandoned_eq hl hlt hstate⟩
  | answered e =>
      obtain ⟨hlt, hstate⟩ := ht
      refine ⟨Nat.lt_of_lt_of_le hlt hle, ?_⟩
      rw [h.acknowledged_eq hl hlt hstate]
      exact hstate
  | raised e error =>
      obtain ⟨hlt, hstate, herror⟩ := ht
      refine ⟨Nat.lt_of_lt_of_le hlt hle, ?_⟩
      rw [h.acknowledged_eq hl hlt hstate]
      exact ⟨hstate, herror⟩
  | returned e job =>
      obtain ⟨hlt, hstate, herror, hresult⟩ := ht
      refine ⟨Nat.lt_of_lt_of_le hlt hle, ?_⟩
      rw [h.acknowledged_eq hl hlt hstate]
      exact ⟨hstate, herror, hresult⟩
  | waiting e => exact Nat.lt_of_lt_of_le ht hle
  | expired e => exact Nat.lt_of_lt_of_le ht hle
  | _ => trivial

/-- An acknowledged call is told what its envelope says. -/
theorem told_answer (hlt : e < s.count) (hstate : (s.envelopes e).state = .acknowledged) :
  Told s (answer e (s.envelopes e))
  := by
  unfold answer
  split
  · next error herror => exact ⟨hlt, hstate, herror⟩
  · trivial
  · next job herror hresult => exact ⟨hlt, hstate, herror, hresult⟩

/-- Every step keeps what the calls were told. -/
theorem told_step (ht : ∀ i, Told s (s.callers i)) (hl : Lives s) (h : Step timeout s s') (i : Nat) :
  Told s' (s'.callers i)
  := by
  have hkept : Told s' (s.callers i) := (ht i).step hl h
  have hupdate : ∀ (j : Nat) (c : Caller), Told s' c →
      Told s' (Function.update s.callers j c i) := by
    intro j c hc
    by_cases hij : i = j
    · subst hij
      rw [Function.update_self]
      exact hc
    · rw [Function.update_of_ne hij]
      exact hkept
  cases h with
  | call j command h => exact hupdate j _ trivial
  | submit j command deadline h haccepting => exact hupdate j _ (Nat.lt_succ_self s.count)
  | refuse j command deadline h haccepting => exact hupdate j _ trivial
  | acknowledged j e h hacknowledged =>
      have hlt : Told s (.waiting e) := by
        rw [← h]
        apply ht
      exact hupdate j _ ⟨hlt, hacknowledged⟩
  | expire j e h hdeadline =>
      have hlt : Told s (.waiting e) := by
        rw [← h]
        apply ht
      exact hupdate j _ hlt
  | abandon j e h =>
      have hlt : Told s (.expired e) := by
        rw [← h]
        apply ht
      apply hupdate
      by_cases hstate : (s.envelopes e).state = .acknowledged
      · rw [show (s.envelopes e).abandonUnacknowledged = (false, s.envelopes e) by
          simp [Envelope.abandonUnacknowledged, hstate]]
        refine ⟨hlt, ?_⟩
        simp only [State.caller, envelopes_update_self]
        exact hstate
      · rw [show (s.envelopes e).abandonUnacknowledged =
          (true, { s.envelopes e with state := .abandoned }) by
          simp [Envelope.abandonUnacknowledged, hstate]]
        refine ⟨hlt, ?_⟩
        simp only [State.caller, envelopes_update_self]
  | answer j e h =>
      have hanswered : Told s (.answered e) := by
        rw [← h]
        apply ht
      obtain ⟨hlt, hstate⟩ := hanswered
      exact hupdate j _ (told_answer hlt hstate)
  | _ => exact hkept

/-! ### Runs -/

/-- Nothing has happened when the coordinator has started. -/
theorem initial_lives (clock : Int) (jobs : String → Option Job) :
  Lives (initial clock jobs)
  := by
  constructor
  · intro e h
    cases h
  · intro e
    exact Nat.zero_le _
  · intro e stage h
    cases h
  · intro e stage h
    cases h
  · intro e h
    cases h
  · intro e _
    constructor
    · rintro ⟨job, h⟩
      cases h
    · intro h
      cases h

/-- What holds in the runs in which a rejected command finds its job at the revision that was read
before. -/
theorem ReachableUndisturbed.invariant (h : ReachableUndisturbed timeout s) :
  Lives s ∧ ∀ i, Told s (s.callers i)
  := by
  obtain ⟨clock, jobs, hrun⟩ := h
  induction hrun with
  | refl => exact ⟨initial_lives clock jobs, fun _ => trivial⟩
  | tail _ hstep ih =>
      obtain ⟨hlives, htold⟩ := ih
      obtain ⟨hstep, hundisturbed⟩ := hstep
      exact ⟨hlives.step hundisturbed hstep, told_step htold hlives hstep⟩

/-- How far an envelope is: nothing has come of it, its change is committed and not yet driven, or
it is settled. -/
theorem Lives.progress (hl : Lives s) (he : e < s.count) :
  Fresh s e ∨ Settled s e ∨ ∃ stage job, s.thread = .busy e stage ∧ Pending s e job ∧
    ((s.envelopes e).state = .acknowledged →
      stage = .answered job ∧ (s.envelopes e).result = some job)
  := by
  by_cases hmem : .envelope e ∈ s.mailbox
  · exact .inl (hl.fresh e hmem).2
  · by_cases hbusy : ∃ stage, s.thread = .busy e stage
    · obtain ⟨stage, hthread⟩ := hbusy
      obtain ⟨_, hholds⟩ := hl.busy e stage hthread
      cases stage with
      | received => exact .inl hholds
      | reading => exact .inl hholds
      | calling before => exact .inl hholds
      | validated before current target => exact .inl hholds.1
      | transacting before current target => exact .inl hholds.1
      | permitted before current target => exact .inl hholds.1
      | committed job =>
          obtain ⟨hpending, hstate⟩ := hholds
          right
          right
          exact ⟨_, job, hthread, hpending, fun h => absurd h hstate⟩
      | answered job =>
          obtain ⟨hpending, _, hresult⟩ := hholds
          right
          right
          exact ⟨_, job, hthread, hpending, fun _ => ⟨rfl, hresult⟩⟩
      | rejected before error => exact .inl hholds
      | mismatched error => exact absurd hholds id
      | driving => exact .inr (.inl (.inl hholds))
      | failing =>
          right
          rcases hholds with hdriven | ⟨hstate, job, hpending⟩
          · exact .inl (.inl hdriven)
          · right
            refine ⟨_, job, hthread, hpending, ?_⟩
            rw [hstate]
            intro h
            cases h
    · simp only [not_exists] at hbusy
      exact .inr (.inl (hl.settled e he hmem hbusy))

/-- An envelope that is acknowledged was refused, or its change is committed and it is driven or
about to be. -/
theorem Lives.acknowledged (hl : Lives s) (he : e < s.count)
    (hstate : (s.envelopes e).state = .acknowledged) :
  Refused s e ∨ (∃ job, (s.envelopes e).result = some job ∧ (e, job) ∈ s.commits) ∧
    (s.envelopes e).error = none ∧ (e ∈ s.driven ∨ ∃ job, s.thread = .busy e (.answered job))
  := by
  rcases hl.progress he with hfresh | hsettled | ⟨stage, job, hthread, hpending, hanswered⟩
  · exact absurd hstate hfresh.state
  · rcases hsettled with hdriven | hrefused | habandoned
    · right
      exact ⟨hdriven.result, hdriven.error, .inl hdriven.driven⟩
    · left
      exact hrefused
    · rw [habandoned.state] at hstate
      cases hstate
  · right
    obtain ⟨rfl, hresult⟩ := hanswered hstate
    exact ⟨⟨job, hresult, hpending.committed⟩, hpending.error, .inr ⟨job, hthread⟩⟩

/-- An abandoned envelope is not driven, and its job is failed in the end. -/
theorem Lives.abandoned (hl : Lives s) (he : e < s.count)
    (hstate : (s.envelopes e).state = .abandoned) :
  e ∉ s.driven ∧ ((∀ stage, s.thread ≠ .busy e stage) → Committed s e →
    ∃ job, s.job e = some job ∧ job.state = .failed)
  := by
  rcases hl.progress he with hfresh | hsettled | ⟨stage, job, hthread, hpending, _⟩
  · refine ⟨hfresh.undriven, ?_⟩
    intro _ hcommitted
    exact absurd hcommitted hfresh.uncommitted
  · rcases hsettled with hdriven | hrefused | habandoned
    · rw [hdriven.state] at hstate
      cases hstate
    · rw [hrefused.state] at hstate
      cases hstate
    · refine ⟨habandoned.undriven, ?_⟩
      intro _ hcommitted
      apply habandoned.failed hcommitted
  · refine ⟨hpending.undriven, ?_⟩
    intro hidle
    exact absurd hthread (hidle stage)

/-- A driven envelope was acknowledged without an error. -/
theorem Lives.driven (hl : Lives s) (hdriven : e ∈ s.driven) :
  Driven s e
  := by
  have hlt : e < s.count := by
    by_contra hnot
    apply (hl.absent e (by omega)).2 hdriven
  rcases hl.progress hlt with hfresh | hsettled | ⟨stage, job, _, hpending, _⟩
  · exact absurd hdriven hfresh.undriven
  · rcases hsettled with hd | hrefused | habandoned
    · exact hd
    · exact absurd hdriven hrefused.undriven
    · exact absurd hdriven habandoned.undriven
  · exact absurd hdriven hpending.undriven

/-- **The agreement of the acknowledgements.** In every state of a run in which a rejected command
finds its job at the revision that was read before: a call that returns a job returns the one that
its command has committed; the command of a call that timed out is not driven, and when it was
committed its job is failed once the coordinator is done with it; a call that raised another error
left nothing committed; and the driven commands are those that were acknowledged without an error,
up to the one that is about to be driven. -/
theorem acknowledgements_agree (h : ReachableUndisturbed timeout s) :
  (∀ i e job, s.callers i = .returned e job → (e, job) ∈ s.commits) ∧
    (∀ i e, s.callers i = .timedOut e → e ∉ s.driven ∧
      ((∀ stage, s.thread ≠ .busy e stage) → Committed s e →
        ∃ job, s.job e = some job ∧ job.state = .failed)) ∧
    (∀ i e error, s.callers i = .raised e error → ¬ Committed s e) ∧
    (∀ e ∈ s.driven, (s.envelopes e).state = .acknowledged ∧ (s.envelopes e).error = none ∧
      Committed s e) ∧
    ∀ e < s.count, (s.envelopes e).state = .acknowledged → (s.envelopes e).error = none →
      e ∈ s.driven ∨ ∃ job, s.thread = .busy e (.answered job)
  := by
  obtain ⟨hlives, htold⟩ := h.invariant
  refine ⟨?_, ?_, ?_, ?_, ?_⟩
  · intro i e job hcaller
    have hreturned := htold i
    rw [hcaller] at hreturned
    obtain ⟨hlt, hstate, herror, hresult⟩ := hreturned
    rcases hlives.acknowledged hlt hstate with hrefused | ⟨⟨job', hjob, hcommitted⟩, _⟩
    · exact absurd herror hrefused.error
    · rw [hresult] at hjob
      obtain rfl := Option.some.inj hjob
      exact hcommitted
  · intro i e hcaller
    have htimedOut := htold i
    rw [hcaller] at htimedOut
    apply hlives.abandoned htimedOut.1 htimedOut.2
  · intro i e error hcaller
    have hraised := htold i
    rw [hcaller] at hraised
    obtain ⟨hlt, hstate, herror⟩ := hraised
    rcases hlives.acknowledged hlt hstate with hrefused | ⟨_, hnone, _⟩
    · exact hrefused.uncommitted
    · rw [herror] at hnone
      cases hnone
  · intro e hdriven
    obtain ⟨hstate, herror, ⟨job, _, hcommitted⟩, _⟩ := hlives.driven hdriven
    exact ⟨hstate, herror, job, hcommitted⟩
  · intro e hlt hstate herror
    rcases hlives.acknowledged hlt hstate with hrefused | ⟨_, _, hdriven⟩
    · exact absurd herror hrefused.error
    · exact hdriven

/-! ### Examples -/

/-- Every job is ready to run. -/
def sampleJobs : String → Option Job := fun _ => some ⟨.offlineWorkflow, .readyToRun, 7, none⟩

/-- A review of a job that is ready to run is rejected, and the execution of the job ends before
the coordinator compares the revisions: the call returns the job. -/
theorem exists_returned_uncommitted :
  ∃ s job, Reachable 1 s ∧ s.callers 0 = .returned 0 job ∧ s.commits = []
  := by
  have hlive : (initial 0 sampleJobs).thread ≠ .exited := by simp [initial]
  have hcalled : Relation.ReflTransGen (Step 1) (initial 0 sampleJobs) _ :=
    Relation.ReflTransGen.refl.tail (.call 0 ⟨.continueReview, "job-1"⟩ rfl)
  have hsubmitted := hcalled.tail (.submit 0 ⟨.continueReview, "job-1"⟩ 1 rfl ⟨hlive, rfl⟩)
  have hcalling := ((hsubmitted.tail (.receive 0 [] rfl rfl)).tail
    (.process 0 rfl (by decide))).tail (.read 0 rfl)
  have hrejected := hcalling.tail (.reject 0 _ "REVIEW_NOT_ALLOWED" rfl rfl)
  have hended := hrejected.tail (.machine "job-1" ⟨.offlineWorkflow, .readyToRun, 7, none⟩ .completed
    rfl (by decide) (by decide) (by rintro e stage h; cases h; exact id))
  have hmismatched := hended.tail (.rejectedChanged 0 _ "REVIEW_NOT_ALLOWED" rfl rfl)
  have hacknowledged := hmismatched.tail
    (.complete 0 ⟨.offlineWorkflow, .completed, 8, none⟩ "REVIEW_NOT_ALLOWED" rfl rfl)
  have hreturned := (hacknowledged.tail (.acknowledged 0 0 rfl rfl)).tail (.answer 0 0 rfl)
  exact ⟨_, _, ⟨0, sampleJobs, hreturned⟩, rfl, rfl⟩

/-- A call can return a job that its command has not committed. -/
theorem returned_can_be_uncommitted :
  ¬ ∀ s, Reachable 1 s → ∀ i e job, s.callers i = .returned e job → (e, job) ∈ s.commits
  := by
  intro hall
  obtain ⟨s, job, hreachable, hcaller, hcommits⟩ := exists_returned_uncommitted
  have hmem := hall s hreachable 0 0 job hcaller
  rw [hcommits] at hmem
  cases hmem

/-- The chain has rejected a command. -/
def Thread.rejects : Thread → Bool
  | .busy _ (.rejected _ _) => true
  | _ => false

/-- A state in which no command is rejected. -/
theorem undisturbed_of_thread (h : s.thread.rejects = false) :
  Undisturbed s
  := by
  intro e before error hthread
  rw [hthread] at h
  cases h

/-- A drawing is submitted, committed and driven, and its call returns. -/
theorem exists_returned :
  ∃ s job, ReachableUndisturbed 1 s ∧ s.callers 0 = .returned 0 job ∧ s.driven = [0]
  := by
  have hlive : (initial 0 (fun _ => none)).thread ≠ .exited := by simp [initial]
  have hcalled : Relation.ReflTransGen (fun s s' => Step 1 s s' ∧ Undisturbed s)
      (initial 0 (fun _ => none)) _ :=
    Relation.ReflTransGen.refl.tail
      ⟨.call 0 ⟨.submit, "job-1"⟩ rfl, undisturbed_of_thread rfl⟩
  have hsubmitted := hcalled.tail
    ⟨.submit 0 ⟨.submit, "job-1"⟩ 1 rfl ⟨hlive, rfl⟩, undisturbed_of_thread rfl⟩
  have hreceived := hsubmitted.tail
    ⟨.receive 0 [] rfl rfl, undisturbed_of_thread rfl⟩
  have hreading := hreceived.tail
    ⟨.process 0 rfl (by decide), undisturbed_of_thread rfl⟩
  have hcalling := hreading.tail ⟨.read 0 rfl, undisturbed_of_thread rfl⟩
  have hvalidated := hcalling.tail
    ⟨.validate 0 _ ⟨.offlineWorkflow, .queued, 0, none⟩ rfl rfl, undisturbed_of_thread rfl⟩
  have hchecked := hvalidated.tail
    ⟨.check 0 _ _ _ rfl, undisturbed_of_thread rfl⟩
  have htransacting := hchecked.tail
    ⟨.transact 0 none none ⟨.offlineWorkflow, .queued, 0, none⟩ rfl rfl, undisturbed_of_thread rfl⟩
  have hpermitted := htransacting.tail
    ⟨.checkCommit 0 none none ⟨.offlineWorkflow, .queued, 0, none⟩ rfl, undisturbed_of_thread rfl⟩
  have hcommitted := hpermitted.tail
    ⟨.commit 0 none none ⟨.offlineWorkflow, .queued, 0, none⟩ rfl, undisturbed_of_thread rfl⟩
  have hanswered := hcommitted.tail
    ⟨.acknowledge 0 ⟨.offlineWorkflow, .queued, 0, none⟩ rfl, undisturbed_of_thread rfl⟩
  have hdriving := hanswered.tail
    ⟨.drive 0 ⟨.offlineWorkflow, .queued, 0, none⟩ rfl (by decide), undisturbed_of_thread rfl⟩
  have hacknowledged := hdriving.tail
    ⟨.acknowledged 0 0 rfl rfl, undisturbed_of_thread rfl⟩
  have hreturned := hacknowledged.tail ⟨.answer 0 0 rfl, undisturbed_of_thread rfl⟩
  exact ⟨_, _, ⟨0, fun _ => none, hreturned⟩, rfl, rfl⟩

/-- The agreement in the run of a drawing. -/
theorem acknowledgements_agree_on_sample :
  ∃ s job, ReachableUndisturbed 1 s ∧ s.callers 0 = .returned 0 job ∧ (0, job) ∈ s.commits
  := by
  obtain ⟨s, job, hreachable, hcaller, _⟩ := exists_returned
  exact ⟨s, job, hreachable, hcaller, (acknowledgements_agree hreachable).1 0 0 job hcaller⟩

end JobCoordinator

end DrawingMachine
