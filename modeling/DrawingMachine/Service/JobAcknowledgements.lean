import DrawingMachine.Service.JobCoordinator

/-!
# The acknowledgements of the job coordinator

What is true of an envelope depends on where it is: in the mailbox, at a stage of its processing,
or settled. The invariant says so for every envelope. A step of the coordinator moves one envelope
on and keeps the others; every other step keeps them all.
-/

namespace DrawingMachine

namespace JobCoordinator

variable {timeout : Int} {s s' : State}

/-! ### What is true of an envelope -/

/-- The change of the envelope is committed. -/
def Committed (s : State) (e : Nat) : Prop := ∃ job, (e, job) ∈ s.commits

/-- Nothing has come of the envelope yet. -/
structure Fresh (s : State) (e : Nat) : Prop where
  result : (s.envelopes e).result = none
  error : (s.envelopes e).error = none
  state : (s.envelopes e).state ≠ .acknowledged
  uncommitted : ¬ Committed s e
  undriven : e ∉ s.driven

/-- A job that the coordinator can fail, and no other thread can change. -/
def Failable (job : Job) : Prop :=
  job.state ∉ [JobState.readyToRun, .recoveryRequired] ∧ (failUnexpected job).state = .failed

/-- The change of the envelope is committed, and its job is as it was committed. -/
structure Pending (s : State) (e : Nat) (job : Job) : Prop where
  error : (s.envelopes e).error = none
  committed : (e, job) ∈ s.commits
  undriven : e ∉ s.driven
  failable : Failable job
  current : s.job e = some job

/-- The envelope was acknowledged with its result, and its job was driven. -/
structure Driven (s : State) (e : Nat) : Prop where
  state : (s.envelopes e).state = .acknowledged
  error : (s.envelopes e).error = none
  result : ∃ job, (s.envelopes e).result = some job ∧ (e, job) ∈ s.commits
  driven : e ∈ s.driven

/-- The envelope was acknowledged with an error. -/
structure Refused (s : State) (e : Nat) : Prop where
  state : (s.envelopes e).state = .acknowledged
  error : (s.envelopes e).error ≠ none
  uncommitted : ¬ Committed s e
  undriven : e ∉ s.driven

/-- The envelope was abandoned, and its job is failed when its change was committed. -/
structure Abandoned (s : State) (e : Nat) : Prop where
  state : (s.envelopes e).state = .abandoned
  undriven : e ∉ s.driven
  failed : Committed s e → ∃ job, s.job e = some job ∧ job.state = .failed

/-- The processing of the envelope is over. -/
def Settled (s : State) (e : Nat) : Prop := Driven s e ∨ Refused s e ∨ Abandoned s e

/-- What is true of an envelope at a stage of its processing. -/
def Holds (s : State) (e : Nat) : Stage → Prop
  | .received => Fresh s e
  | .reading => Fresh s e
  | .calling _ => Fresh s e
  | .validated _ current target => Fresh s e ∧ (s.envelopes e).command.target current = .ok target
  | .transacting _ current target =>
      Fresh s e ∧ (s.envelopes e).command.target current = .ok target ∧ s.job e = current
  | .permitted _ current target =>
      Fresh s e ∧ (s.envelopes e).command.target current = .ok target ∧ s.job e = current
  | .committed job => Pending s e job ∧ (s.envelopes e).state ≠ .acknowledged
  | .answered job =>
      Pending s e job ∧ (s.envelopes e).state ≠ .queued ∧ (s.envelopes e).result = some job
  | .rejected _ _ => Fresh s e
  | .mismatched _ => False
  | .driving => Driven s e
  | .failing => Driven s e ∨ (s.envelopes e).state = .abandoned ∧ ∃ job, Pending s e job

/-- Every envelope is in the mailbox, at a stage of its processing, or settled. -/
structure Lives (s : State) : Prop where
  fresh : ∀ e, .envelope e ∈ s.mailbox → e < s.count ∧ Fresh s e
  once : ∀ e, s.mailbox.count (.envelope e) ≤ 1
  apart : ∀ e stage, s.thread = .busy e stage → .envelope e ∉ s.mailbox
  busy : ∀ e stage, s.thread = .busy e stage → e < s.count ∧ Holds s e stage
  settled : ∀ e < s.count, .envelope e ∉ s.mailbox → (∀ stage, s.thread ≠ .busy e stage) →
    Settled s e
  absent : ∀ e, s.count ≤ e → ¬ Committed s e ∧ e ∉ s.driven

/-! ### The target of a command -/

/-- A reviewed job can be failed. -/
theorem failable_of_review {job : Job} (hstate : job.state = .blocked)
    (hallowed : allowedTransition job.state .imageReady job.blockerCode job.kind = true) :
  Failable { job with state := .imageReady, revision := job.revision + 1, blockerCode := none }
  := by
  obtain ⟨kind, state, revision, blockerCode⟩ := job
  simp only at hstate
  subst hstate
  cases kind with
  | offlineWorkflow =>
      simp [Failable, failUnexpected, allowedTransition, jobStates, terminalStates,
        failClosedResults]
  | gcodeCheck => simp [allowedTransition, jobStates] at hallowed

/-- A command asks for a job that can be failed, of a job that was not failed. -/
theorem failable_of_target {command : Command} {current : Option Job} {target : Job}
    (h : command.target current = .ok target) :
  Failable target ∧ ∀ job, current = some job → job.state ≠ .failed
  := by
  obtain ⟨kind, jobId⟩ := command
  cases kind with
  | submit =>
      cases current with
      | none =>
          obtain rfl := Except.ok.inj h
          refine ⟨⟨by decide, by decide⟩, by simp⟩
      | some job => cases h
  | gcodeCheck =>
      cases current with
      | none =>
          obtain rfl := Except.ok.inj h
          refine ⟨⟨by decide, by decide⟩, by simp⟩
      | some job => cases h
  | continueReview =>
      cases current with
      | none => cases h
      | some job =>
          simp only [Command.target] at h
          split at h
          · cases h
          · next hreview =>
              split at h
              · cases h
              · next hallowed =>
                  obtain rfl := Except.ok.inj h
                  simp only [not_or, not_not] at hreview
                  constructor
                  · apply failable_of_review hreview.1
                    simpa using hallowed
                  · intro job' heq
                    obtain rfl := Option.some.inj heq
                    rw [hreview.1]
                    simp

/-- Failing a job does not change a failed one. -/
theorem failUnexpected_of_failed {job : Job} (h : job.state = .failed) :
  failUnexpected job = job
  := by
  simp [failUnexpected, h]

/-! ### Steps that keep an envelope -/

/-- An envelope is left, or given up before it is acknowledged. -/
def Lapses (envelope envelope' : Envelope) : Prop :=
  envelope' = envelope ∨
    envelope.state ≠ .acknowledged ∧ envelope' = { envelope with state := .abandoned }

/-- A step keeps an envelope, and does not change its job when it is failed. -/
structure Kept (s s' : State) (e : Nat) : Prop where
  envelope : Lapses (s.envelopes e) (s'.envelopes e)
  commits : ∀ job, (e, job) ∈ s'.commits ↔ (e, job) ∈ s.commits
  driven : e ∈ s'.driven ↔ e ∈ s.driven
  failed : ∀ jobId job, s.jobs jobId = some job → job.state = .failed → s'.jobs jobId = some job

/-- An envelope that lapses has the command, the result and the error that it had. -/
theorem Lapses.data {envelope envelope' : Envelope} (h : Lapses envelope envelope') :
  envelope'.command = envelope.command ∧ envelope'.deadline = envelope.deadline ∧
    envelope'.result = envelope.result ∧ envelope'.error = envelope.error
  := by
  rcases h with rfl | ⟨_, rfl⟩
  · exact ⟨rfl, rfl, rfl, rfl⟩
  · exact ⟨rfl, rfl, rfl, rfl⟩

/-- An acknowledged envelope does not lapse. -/
theorem Lapses.acknowledged {envelope envelope' : Envelope} (h : Lapses envelope envelope') :
  envelope'.state = .acknowledged ↔ envelope.state = .acknowledged
  := by
  rcases h with rfl | ⟨hstate, rfl⟩
  · exact Iff.rfl
  · simp [hstate]

/-- An envelope is not queued again. -/
theorem Lapses.queued {envelope envelope' : Envelope} (h : Lapses envelope envelope')
    (hstate : envelope.state ≠ .queued) :
  envelope'.state ≠ .queued
  := by
  rcases h with rfl | ⟨_, rfl⟩
  · exact hstate
  · simp

/-- An abandoned envelope stays so. -/
theorem Lapses.abandoned {envelope envelope' : Envelope} (h : Lapses envelope envelope')
    (hstate : envelope.state = .abandoned) :
  envelope'.state = .abandoned
  := by
  rcases h with rfl | ⟨_, rfl⟩
  · exact hstate
  · rfl

variable {e : Nat}

/-- A change that is committed stays so. -/
theorem Kept.committed (hk : Kept s s' e) :
  Committed s' e ↔ Committed s e
  := by
  unfold Committed
  simp only [hk.commits]

/-- An envelope of which nothing has come is kept. -/
theorem Fresh.kept (hf : Fresh s e) (hk : Kept s s' e) :
  Fresh s' e
  := by
  obtain ⟨_, _, hresult, herror⟩ := hk.envelope.data
  constructor
  · rw [hresult]
    apply hf.result
  · rw [herror]
    apply hf.error
  · rw [Ne, hk.envelope.acknowledged]
    apply hf.state
  · rw [hk.committed]
    apply hf.uncommitted
  · rw [hk.driven]
    apply hf.undriven

/-- A driven envelope is kept. -/
theorem Driven.kept (hd : Driven s e) (hk : Kept s s' e) :
  Driven s' e
  := by
  obtain ⟨_, _, hresult, herror⟩ := hk.envelope.data
  obtain ⟨job, hjob, hcommitted⟩ := hd.result
  constructor
  · rw [hk.envelope.acknowledged]
    apply hd.state
  · rw [herror]
    apply hd.error
  · use job
    rw [hresult, hk.commits]
    exact ⟨hjob, hcommitted⟩
  · rw [hk.driven]
    apply hd.driven

/-- A settled envelope is kept. -/
theorem Settled.kept (hs : Settled s e) (hk : Kept s s' e) :
  Settled s' e
  := by
  obtain ⟨hcommand, _, hresult, herror⟩ := hk.envelope.data
  rcases hs with hd | hr | ha
  · left
    apply hd.kept hk
  · right
    left
    constructor
    · rw [hk.envelope.acknowledged]
      apply hr.state
    · rw [herror]
      apply hr.error
    · rw [hk.committed]
      apply hr.uncommitted
    · rw [hk.driven]
      apply hr.undriven
  · right
    right
    constructor
    · apply hk.envelope.abandoned ha.state
    · rw [hk.driven]
      apply ha.undriven
    · intro hcommitted
      obtain ⟨job, hjob, hstate⟩ := ha.failed (hk.committed.mp hcommitted)
      refine ⟨job, ?_, hstate⟩
      unfold State.job
      rw [hcommand]
      apply hk.failed _ job hjob hstate

/-- A committed change is kept with its job. -/
theorem Pending.kept {job : Job} (hp : Pending s e job) (hk : Kept s s' e)
    (hjob : s'.jobs (s.envelopes e).command.jobId = some job) :
  Pending s' e job
  := by
  obtain ⟨hcommand, _, _, herror⟩ := hk.envelope.data
  constructor
  · rw [herror]
    apply hp.error
  · rw [hk.commits]
    apply hp.committed
  · rw [hk.driven]
    apply hp.undriven
  · apply hp.failable
  · unfold State.job
    rw [hcommand]
    exact hjob

/-- A step that leaves the envelope, what has happened, and the jobs. -/
theorem kept_of_eq (henvelope : s'.envelopes e = s.envelopes e) (hcommits : s'.commits = s.commits)
    (hdriven : s'.driven = s.driven) (hjobs : s'.jobs = s.jobs) :
  Kept s s' e
  := by
  constructor
  · exact .inl henvelope
  · intro job
    rw [hcommits]
  · rw [hdriven]
  · intro jobId job hjob _
    rw [hjobs]
    exact hjob

/-- A job that is written keeps the failed jobs, when it is not failed itself or is left. -/
theorem failed_of_write {jobId : String} {new : Job}
    (h : ∀ job, s.jobs jobId = some job → job.state = .failed → new = job) (jobId' : String)
    (job : Job) (hjob : s.jobs jobId' = some job) (hfailed : job.state = .failed) :
  (s.write jobId new).jobs jobId' = some job
  := by
  by_cases heq : jobId' = jobId
  · subst heq
    rw [h job hjob hfailed] at *
    simp [State.write]
  · simpa [State.write, heq] using hjob

/-- The other envelopes when one is changed. -/
theorem envelopes_update_of_ne (s : State) {e e' : Nat} (envelope : Envelope) (h : e' ≠ e) :
  (s.update e envelope).envelopes e' = s.envelopes e'
  := by
  simp [State.update, h]

/-- The envelope that is changed. -/
theorem envelopes_update_self (s : State) (e : Nat) (envelope : Envelope) :
  (s.update e envelope).envelopes e = envelope
  := by
  simp [State.update]

/-- Asking whether a change may be committed can abandon the envelope. -/
theorem lapses_commitAllowed (envelope : Envelope) (now : Int) :
  Lapses envelope (envelope.commitAllowed now).2
  := by
  unfold Envelope.commitAllowed
  split
  · exact .inl rfl
  · next hqueued =>
      split
      · right
        simp only [ne_eq, not_not] at hqueued
        simp [hqueued]
      · exact .inl rfl

/-- A submitter gives its envelope up, unless it is acknowledged. -/
theorem lapses_abandonUnacknowledged (envelope : Envelope) :
  Lapses envelope envelope.abandonUnacknowledged.2
  := by
  unfold Envelope.abandonUnacknowledged
  split
  · exact .inl rfl
  · next hstate => exact .inr ⟨hstate, rfl⟩

/-! ### Steps of the coordinator, and of the others -/

/-- The coordinator moves one envelope on, and keeps the others. -/
theorem Lives.move (hl : Lives s) {stage : Stage} (hthread : s.thread = .busy e stage)
    (hmailbox : s'.mailbox = s.mailbox) (hcount : s'.count = s.count)
    (hkept : ∀ e', e' ≠ e → Kept s s' e')
    (hnext : (∃ stage', s'.thread = .busy e stage' ∧ Holds s' e stage') ∨
      s'.thread = .waiting ∧ Settled s' e) :
  Lives s'
  := by
  obtain ⟨hlt, _⟩ := hl.busy e stage hthread
  have hnot := hl.apart e stage hthread
  constructor
  · intro e' hmem
    rw [hmailbox] at hmem
    have hne : e' ≠ e := by
      rintro rfl
      exact hnot hmem
    obtain ⟨hlt', hfresh⟩ := hl.fresh e' hmem
    rw [hcount]
    exact ⟨hlt', hfresh.kept (hkept e' hne)⟩
  · rw [hmailbox]
    apply hl.once
  · intro e' stage' hbusy
    rw [hmailbox]
    rcases hnext with ⟨stage'', heq, _⟩ | ⟨heq, _⟩
    · rw [heq] at hbusy
      cases hbusy
      exact hnot
    · rw [heq] at hbusy
      cases hbusy
  · intro e' stage' hbusy
    rcases hnext with ⟨stage'', heq, hholds⟩ | ⟨heq, _⟩
    · rw [heq] at hbusy
      cases hbusy
      rw [hcount]
      exact ⟨hlt, hholds⟩
    · rw [heq] at hbusy
      cases hbusy
  · intro e' hlt' hmem hidle
    rw [hcount] at hlt'
    rw [hmailbox] at hmem
    by_cases heq : e' = e
    · subst heq
      rcases hnext with ⟨stage', hbusy, _⟩ | ⟨_, hsettled⟩
      · exact absurd hbusy (hidle stage')
      · exact hsettled
    · apply Settled.kept _ (hkept e' heq)
      apply hl.settled e' hlt' hmem
      intro stage' hbusy
      rw [hthread] at hbusy
      cases hbusy
      exact heq rfl
  · intro e' hle
    rw [hcount] at hle
    have hne : e' ≠ e := by omega
    rw [(hkept e' hne).committed, (hkept e' hne).driven]
    apply hl.absent e' hle

/-- A step that keeps every envelope where it is. -/
theorem Lives.rest (hl : Lives s) (hthread : ∀ e stage, s'.thread = .busy e stage ↔
      s.thread = .busy e stage) (hcount : s'.count = s.count)
    (hmailbox : ∀ e, s'.mailbox.count (.envelope e) = s.mailbox.count (.envelope e))
    (hkept : ∀ e, Kept s s' e)
    (hholds : ∀ e stage, s.thread = .busy e stage → Holds s e stage → Holds s' e stage) :
  Lives s'
  := by
  have hmem : ∀ e, .envelope e ∈ s'.mailbox ↔ .envelope e ∈ s.mailbox := by
    intro e
    rw [← List.count_pos_iff, hmailbox e, List.count_pos_iff]
  constructor
  · intro e he
    obtain ⟨hlt, hfresh⟩ := hl.fresh e ((hmem e).mp he)
    rw [hcount]
    exact ⟨hlt, hfresh.kept (hkept e)⟩
  · intro e
    rw [hmailbox e]
    apply hl.once
  · intro e stage hbusy
    rw [hmem e]
    apply hl.apart e stage ((hthread e stage).mp hbusy)
  · intro e stage hbusy
    obtain ⟨hlt, hstage⟩ := hl.busy e stage ((hthread e stage).mp hbusy)
    rw [hcount]
    exact ⟨hlt, hholds e stage ((hthread e stage).mp hbusy) hstage⟩
  · intro e hlt he hidle
    rw [hcount] at hlt
    rw [hmem e] at he
    apply Settled.kept _ (hkept e)
    apply hl.settled e hlt he
    intro stage hbusy
    apply hidle stage ((hthread e stage).mpr hbusy)
  · intro e hle
    rw [hcount] at hle
    rw [(hkept e).committed, (hkept e).driven]
    apply hl.absent e hle

/-- A step that keeps an envelope and the jobs of the stage keeps what is true of it. -/
theorem Holds.kept {stage : Stage} (hh : Holds s e stage) (hk : Kept s s' e)
    (hjob : stage.Writing → s'.jobs (s.envelopes e).command.jobId = s.job e)
    (hfailable : ∀ job, s.job e = some job → Failable job →
      s'.jobs (s.envelopes e).command.jobId = some job) :
  Holds s' e stage
  := by
  obtain ⟨hcommand, _, hresult, herror⟩ := hk.envelope.data
  cases stage with
  | received => exact Fresh.kept hh hk
  | reading => exact Fresh.kept hh hk
  | calling before => exact Fresh.kept hh hk
  | validated before current target =>
      obtain ⟨hfresh, htarget⟩ := hh
      refine ⟨hfresh.kept hk, ?_⟩
      rw [hcommand]
      exact htarget
  | transacting before current target =>
      obtain ⟨hfresh, htarget, hcurrent⟩ := hh
      refine ⟨hfresh.kept hk, ?_, ?_⟩
      · rw [hcommand]
        exact htarget
      · unfold State.job
        rw [hcommand, hjob trivial]
        exact hcurrent
  | permitted before current target =>
      obtain ⟨hfresh, htarget, hcurrent⟩ := hh
      refine ⟨hfresh.kept hk, ?_, ?_⟩
      · rw [hcommand]
        exact htarget
      · unfold State.job
        rw [hcommand, hjob trivial]
        exact hcurrent
  | committed job =>
      obtain ⟨hpending, hstate⟩ := hh
      refine ⟨hpending.kept hk (hfailable job hpending.current hpending.failable), ?_⟩
      rw [Ne, hk.envelope.acknowledged]
      exact hstate
  | answered job =>
      obtain ⟨hpending, hstate, hjob⟩ := hh
      refine ⟨hpending.kept hk (hfailable job hpending.current hpending.failable), ?_, ?_⟩
      · apply hk.envelope.queued hstate
      · rw [hresult]
        exact hjob
  | rejected before error => exact Fresh.kept hh hk
  | mismatched error => exact hh
  | driving => exact Driven.kept hh hk
  | failing =>
      rcases hh with hdriven | ⟨hstate, job, hpending⟩
      · left
        apply hdriven.kept hk
      · right
        refine ⟨hk.envelope.abandoned hstate, job, ?_⟩
        apply hpending.kept hk (hfailable job hpending.current hpending.failable)

/-- A step that leaves the thread, the envelopes, the jobs, and what has happened. -/
theorem Lives.idle (hl : Lives s) (hthread : s'.thread = s.thread) (hcount : s'.count = s.count)
    (hmailbox : ∀ e, s'.mailbox.count (.envelope e) = s.mailbox.count (.envelope e))
    (henvelopes : s'.envelopes = s.envelopes) (hcommits : s'.commits = s.commits)
    (hdriven : s'.driven = s.driven) (hjobs : s'.jobs = s.jobs) :
  Lives s'
  := by
  have hkept : ∀ e, Kept s s' e := by
    intro e
    apply kept_of_eq _ hcommits hdriven hjobs
    rw [henvelopes]
  apply hl.rest _ hcount hmailbox hkept
  · intro e stage _ hholds
    apply hholds.kept (hkept e)
    · intro _
      rw [hjobs]
      rfl
    · intro job hjob _
      rw [hjobs]
      exact hjob
  · intro e stage
    rw [hthread]

/-- A command is put into the mailbox. -/
theorem Lives.submit (hl : Lives s) (command : Command) (deadline : Int)
    (hcount : s'.count = s.count + 1) (hthread : s'.thread = s.thread)
    (hmailbox : s'.mailbox = s.mailbox ++ [.envelope s.count]) (hjobs : s'.jobs = s.jobs)
    (henvelopes : s'.envelopes =
      Function.update s.envelopes s.count ⟨command, deadline, none, none, .queued⟩)
    (hcommits : s'.commits = s.commits) (hdriven : s'.driven = s.driven) :
  Lives s'
  := by
  have hnew : s'.envelopes s.count = ⟨command, deadline, none, none, .queued⟩ := by
    rw [henvelopes]
    apply Function.update_self
  have hkept : ∀ e, e ≠ s.count → Kept s s' e := by
    intro e hne
    apply kept_of_eq _ hcommits hdriven hjobs
    rw [henvelopes]
    apply Function.update_of_ne hne
  have hold : ∀ e, .envelope e ∈ s.mailbox → e ≠ s.count := by
    intro e he heq
    have hlt := (hl.fresh e he).1
    omega
  obtain ⟨huncommitted, hundriven⟩ := hl.absent s.count (Nat.le_refl _)
  constructor
  · intro e he
    rw [hmailbox, List.mem_append, List.mem_singleton, Item.envelope.injEq] at he
    rw [hcount]
    rcases he with he | rfl
    · obtain ⟨hlt, hfresh⟩ := hl.fresh e he
      exact ⟨by omega, hfresh.kept (hkept e (hold e he))⟩
    · refine ⟨by omega, ?_⟩
      constructor
      · rw [hnew]
      · rw [hnew]
      · rw [hnew]
        simp
      · unfold Committed
        rw [hcommits]
        exact huncommitted
      · rw [hdriven]
        exact hundriven
  · intro e
    rw [hmailbox, List.count_append]
    by_cases heq : e = s.count
    · subst heq
      have hzero : s.mailbox.count (.envelope s.count) = 0 := by
        apply List.count_eq_zero_of_not_mem
        intro hmem
        exact hold s.count hmem rfl
      rw [hzero]
      simp
    · have hzero : [Item.envelope s.count].count (.envelope e) = 0 := by
        apply List.count_eq_zero_of_not_mem
        simpa using heq
      rw [hzero]
      apply hl.once
  · intro e stage hbusy
    rw [hthread] at hbusy
    have hlt := (hl.busy e stage hbusy).1
    rw [hmailbox, List.mem_append, List.mem_singleton, Item.envelope.injEq, not_or]
    exact ⟨hl.apart e stage hbusy, by omega⟩
  · intro e stage hbusy
    rw [hthread] at hbusy
    obtain ⟨hlt, hholds⟩ := hl.busy e stage hbusy
    rw [hcount]
    refine ⟨by omega, ?_⟩
    apply hholds.kept (hkept e (by omega))
    · intro _
      rw [hjobs]
      rfl
    · intro job hjob _
      rw [hjobs]
      exact hjob
  · intro e hlt he hidle
    rw [hmailbox, List.mem_append, List.mem_singleton, Item.envelope.injEq, not_or] at he
    rw [hcount] at hlt
    rw [hthread] at hidle
    exact (hl.settled e (by omega) he.1 hidle).kept (hkept e he.2)
  · intro e hle
    rw [hcount] at hle
    rw [(hkept e (by omega)).committed, hdriven]
    exact hl.absent e (by omega)

/-- A command is taken out of the mailbox. -/
theorem Lives.receive (hl : Lives s) {mailbox : List Item} (h : s.thread = .waiting)
    (hmailbox : s.mailbox = .envelope e :: mailbox) :
  Lives { s.goto (.busy e .received) with mailbox := mailbox }
  := by
  have hmem : ∀ e', .envelope e' ∈ mailbox → .envelope e' ∈ s.mailbox := by
    intro e' he
    rw [hmailbox]
    apply List.mem_cons_of_mem _ he
  obtain ⟨hlt, hfresh⟩ := hl.fresh e (by rw [hmailbox]; apply List.mem_cons_self)
  have honce := hl.once e
  rw [hmailbox, List.count_cons_self] at honce
  have hnot : .envelope e ∉ mailbox := by
    rw [← List.count_pos_iff]
    omega
  have hkept : ∀ e', Kept s { s.goto (.busy e .received) with mailbox := mailbox } e' := by
    intro e'
    exact kept_of_eq rfl rfl rfl rfl
  constructor
  · intro e' he
    obtain ⟨hlt', hfresh'⟩ := hl.fresh e' (hmem e' he)
    exact ⟨hlt', hfresh'.kept (hkept e')⟩
  · intro e'
    apply Nat.le_trans _ (hl.once e')
    rw [hmailbox]
    apply List.count_le_count_cons
  · intro e' stage hbusy
    cases hbusy
    exact hnot
  · intro e' stage hbusy
    cases hbusy
    exact ⟨hlt, hfresh.kept (hkept e)⟩
  · intro e' hlt' he hidle
    have hne : e' ≠ e := by
      rintro rfl
      exact hidle .received rfl
    apply Settled.kept _ (hkept e')
    apply hl.settled e' hlt'
    · rw [hmailbox, List.mem_cons, Item.envelope.injEq, not_or]
      exact ⟨hne, he⟩
    · intro stage hbusy
      rw [h] at hbusy
      cases hbusy
  · apply hl.absent

/-- An item that is no envelope is taken out of the mailbox. -/
theorem count_of_cons {item : Item} {mailbox mailbox' : List Item}
    (hmailbox : mailbox = item :: mailbox') (hitem : ∀ e, item ≠ .envelope e) (e : Nat) :
  mailbox'.count (.envelope e) = mailbox.count (.envelope e)
  := by
  rw [hmailbox, List.count_cons_of_ne]
  apply hitem

/-- An item that is no envelope is put into the mailbox. -/
theorem count_of_append (mailbox : List Item) {item : Item} (hitem : ∀ e, item ≠ .envelope e)
    (e : Nat) :
  (mailbox ++ [item]).count (.envelope e) = mailbox.count (.envelope e)
  := by
  rw [List.count_append, List.count_cons_of_ne (hitem e)]
  simp

/-- The coordinator goes on with an envelope, and leaves the rest. -/
theorem Lives.goto (hl : Lives s) {stage : Stage} {thread : Thread}
    (hthread : s.thread = .busy e stage)
    (hnext : (∃ stage', thread = .busy e stage' ∧ Holds s e stage') ∨
      thread = .waiting ∧ Settled s e) :
  Lives (s.goto thread)
  := by
  have hkept : ∀ e', Kept s (s.goto thread) e' := by
    intro e'
    exact kept_of_eq rfl rfl rfl rfl
  refine hl.move hthread rfl rfl (fun e' _ => hkept e') ?_
  rcases hnext with ⟨stage', rfl, hholds⟩ | ⟨rfl, hsettled⟩
  · left
    refine ⟨stage', rfl, hholds.kept (hkept e) (fun _ => rfl) ?_⟩
    intro job hjob _
    exact hjob
  · right
    exact ⟨rfl, hsettled.kept (hkept e)⟩

/-- The envelope of a command that was not committed is settled when it is abandoned. -/
theorem Fresh.settled (hf : Fresh s e) (hstate : (s.envelopes e).state = .abandoned) :
  Settled s e
  := by
  right
  right
  refine ⟨hstate, hf.undriven, ?_⟩
  intro hcommitted
  exact absurd hcommitted hf.uncommitted

/-- An envelope that may not be committed is abandoned, unless it is acknowledged. -/
theorem abandoned_of_commitAllowed {envelope : Envelope} {now : Int}
    (hstate : envelope.state ≠ .acknowledged) (h : (envelope.commitAllowed now).1 = false) :
  (envelope.commitAllowed now).2.state = .abandoned
  := by
  revert h
  unfold Envelope.commitAllowed
  split
  · next hqueued =>
      intro _
      cases henvelope : envelope.state with
      | queued => exact absurd henvelope hqueued
      | acknowledged => exact absurd henvelope hstate
      | abandoned => rfl
  · split
    · intro _
      rfl
    · intro h
      cases h

/-- The chain asks whether it may commit: it goes on with its envelope, or gives it up. -/
theorem Lives.check (hl : Lives s) {stage stage' : Stage} (hthread : s.thread = .busy e stage)
    (hfresh : Fresh s e)
    (hnext : ∀ s', Kept s s' e → s'.jobs = s.jobs → Holds s' e stage') :
  Lives ((s.update e ((s.envelopes e).commitAllowed s.clock).2).goto
    (if ((s.envelopes e).commitAllowed s.clock).1 then .busy e stage' else .waiting))
  := by
  generalize hs' : (s.update e ((s.envelopes e).commitAllowed s.clock).2).goto
    (if ((s.envelopes e).commitAllowed s.clock).1 then .busy e stage' else .waiting) = s'
  have henvelope : s'.envelopes e = ((s.envelopes e).commitAllowed s.clock).2 := by
    rw [← hs']
    apply envelopes_update_self
  have hjobs : s'.jobs = s.jobs := by
    rw [← hs']
    rfl
  have hkept : Kept s s' e := by
    constructor
    · rw [henvelope]
      apply lapses_commitAllowed
    · intro job
      rw [← hs']
      rfl
    · rw [← hs']
      rfl
    · intro jobId job hjob _
      rw [hjobs]
      exact hjob
  apply hl.move hthread
  · rw [← hs']
    rfl
  · rw [← hs']
    rfl
  · intro e' hne
    subst hs'
    exact kept_of_eq (envelopes_update_of_ne s _ hne) rfl rfl rfl
  · cases hallowed : ((s.envelopes e).commitAllowed s.clock).1 with
    | true =>
        left
        refine ⟨stage', ?_, hnext s' hkept hjobs⟩
        rw [← hs', hallowed]
        rfl
    | false =>
        right
        constructor
        · rw [← hs', hallowed]
          rfl
        · apply (hfresh.kept hkept).settled
          rw [henvelope]
          apply abandoned_of_commitAllowed hfresh.state hallowed

/-- The state of an envelope whose acknowledgement is tried. -/
theorem acknowledge_eq (envelope : Envelope) (now : Int) (hstate : envelope.state ≠ .acknowledged) :
  (envelope.acknowledge now).2 = { envelope with state := .acknowledged } ∨
    (envelope.acknowledge now).2 = { envelope with state := .abandoned }
  := by
  unfold Envelope.acknowledge
  split
  · next habandoned =>
      right
      obtain ⟨command, deadline, result, error, state⟩ := envelope
      simp only at habandoned ⊢
      rw [habandoned]
  · split
    · right
      rfl
    · left
      rfl

/-- The change is committed in its transaction. -/
theorem Lives.commit (hl : Lives s) {before current : Option Job} {target : Job}
    (h : s.thread = .busy e (.permitted before current target)) :
  Lives { (s.write (s.envelopes e).command.jobId target).goto (.busy e (.committed target)) with
    commits := (e, target) :: s.commits }
  := by
  obtain ⟨_, hfresh, htarget, hcurrent⟩ := hl.busy e _ h
  obtain ⟨hfailable, hnot⟩ := failable_of_target htarget
  refine hl.move h rfl rfl ?_ ?_
  · intro e' hne
    constructor
    · left
      rfl
    · intro job
      simp [hne]
    · exact Iff.rfl
    · apply failed_of_write
      intro job hjob hfailed
      apply absurd hfailed (hnot job _)
      rw [← hcurrent]
      exact hjob
  · left
    refine ⟨.committed target, rfl, ?_, hfresh.state⟩
    constructor
    · apply hfresh.error
    · apply List.mem_cons_self
    · apply hfresh.undriven
    · exact hfailable
    · simp [State.job, State.write, State.goto]

/-- A committed change when only the answer of its envelope is changed. -/
theorem Pending.of_eq {job : Job} (hp : Pending s e job)
    (hcommand : (s'.envelopes e).command = (s.envelopes e).command)
    (herror : (s'.envelopes e).error = (s.envelopes e).error) (hcommits : s'.commits = s.commits)
    (hdriven : s'.driven = s.driven) (hjobs : s'.jobs = s.jobs) :
  Pending s' e job
  := by
  constructor
  · rw [herror]
    apply hp.error
  · rw [hcommits]
    apply hp.committed
  · rw [hdriven]
    apply hp.undriven
  · apply hp.failable
  · unfold State.job
    rw [hcommand, hjobs]
    apply hp.current

/-- The acknowledgement of a committed change is tried. -/
theorem Lives.acknowledge (hl : Lives s) {job : Job} (h : s.thread = .busy e (.committed job)) :
  Lives ((s.update e ({ s.envelopes e with result := some job }.acknowledge s.clock).2).goto
    (.busy e (.answered job)))
  := by
  obtain ⟨_, hpending, hstate⟩ := hl.busy e _ h
  generalize henvelope : ({ s.envelopes e with result := some job }.acknowledge s.clock).2 = envelope
  have hdata : envelope.command = (s.envelopes e).command ∧
      envelope.error = (s.envelopes e).error ∧ envelope.state ≠ .queued ∧
      envelope.result = some job := by
    rw [← henvelope]
    rcases acknowledge_eq { s.envelopes e with result := some job } s.clock hstate with
      heq | heq <;>
    · rw [heq]
      simp
  obtain ⟨hcommand, herror, hqueued, hresult⟩ := hdata
  rw [← envelopes_update_self s e envelope] at hcommand herror hqueued hresult
  refine hl.move h rfl rfl ?_ ?_
  · intro e' hne
    exact kept_of_eq (envelopes_update_of_ne s _ hne) rfl rfl rfl
  · left
    exact ⟨.answered job, rfl, hpending.of_eq hcommand herror rfl rfl rfl, hqueued, hresult⟩

/-- A job is driven after its acknowledgement. -/
theorem Lives.drive (hl : Lives s) {job : Job} (h : s.thread = .busy e (.answered job))
    (habandoned : (s.envelopes e).state ≠ .abandoned) :
  Lives { s.goto (.busy e .driving) with driven := e :: s.driven }
  := by
  obtain ⟨_, hpending, hqueued, hresult⟩ := hl.busy e _ h
  refine hl.move h rfl rfl ?_ ?_
  · intro e' hne
    constructor
    · exact .inl rfl
    · intro job
      exact Iff.rfl
    · simp [hne]
    · intro jobId job hjob _
      exact hjob
  · left
    refine ⟨.driving, rfl, ?_⟩
    constructor
    · cases hstate : (s.envelopes e).state with
      | queued => exact absurd hstate hqueued
      | acknowledged => exact hstate
      | abandoned => exact absurd hstate habandoned
    · exact hpending.error
    · exact ⟨job, hresult, hpending.committed⟩
    · apply List.mem_cons_self

/-- The coordinator writes the job of its envelope, and does not change a failed one. -/
theorem kept_of_write {jobId : String} {new : Job} {thread : Thread}
    (h : ∀ job, s.jobs jobId = some job → job.state = .failed → new = job) :
  Kept s ((s.write jobId new).goto thread) e
  := by
  constructor
  · exact .inl rfl
  · intro job
    exact Iff.rfl
  · exact Iff.rfl
  · exact failed_of_write h

/-- A driven job goes on. -/
theorem Lives.advance (hl : Lives s) {job : Job} {state : JobState} {blockerCode : Option String}
    (h : s.thread = .busy e .driving) (hjob : s.job e = some job)
    (hallowed : allowedTransition job.state state job.blockerCode job.kind = true) :
  Lives (s.write (s.envelopes e).command.jobId { job with
    state := state, revision := job.revision + 1, blockerCode := blockerCode })
  := by
  obtain ⟨_, hdriven⟩ := hl.busy e _ h
  have hkept : ∀ e', Kept s ((s.write (s.envelopes e).command.jobId { job with
      state := state, revision := job.revision + 1, blockerCode := blockerCode }).goto
      s.thread) e' := by
    intro e'
    apply kept_of_write
    intro job' hjob' hfailed
    obtain rfl := Option.some.inj (hjob.symm.trans hjob')
    rw [allowedTransition_ended (by simp [hfailed])] at hallowed
    cases hallowed
  refine hl.move h rfl rfl (fun e' _ => hkept e') ?_
  left
  exact ⟨.driving, h, Driven.kept hdriven (hkept e)⟩

/-- The coordinator fails a job. -/
theorem Lives.fail (hl : Lives s) {job : Job} (h : s.thread = .busy e .failing)
    (hjob : s.job e = some job) :
  Lives ((s.write (s.envelopes e).command.jobId (failUnexpected job)).goto .waiting)
  := by
  obtain ⟨_, hholds⟩ := hl.busy e _ h
  have hkept : ∀ e', Kept s ((s.write (s.envelopes e).command.jobId
      (failUnexpected job)).goto .waiting) e' := by
    intro e'
    apply kept_of_write
    intro job' hjob' hfailed
    obtain rfl := Option.some.inj (hjob.symm.trans hjob')
    apply failUnexpected_of_failed hfailed
  refine hl.move h rfl rfl (fun e' _ => hkept e') ?_
  right
  refine ⟨rfl, ?_⟩
  rcases hholds with hdriven | ⟨hstate, job', hpending⟩
  · left
    apply hdriven.kept (hkept e)
  · right
    right
    refine ⟨hstate, hpending.undriven, ?_⟩
    intro _
    obtain rfl := Option.some.inj (hjob.symm.trans hpending.current)
    refine ⟨failUnexpected job, ?_, hpending.failable.2⟩
    simp [State.job, State.write, State.goto]

/-- The command of an envelope is refused. -/
theorem Lives.refuse (hl : Lives s) {before : Option Job} {error : String}
    (h : s.thread = .busy e (.rejected before error)) :
  Lives ((s.update e ({ s.envelopes e with error := some error }.acknowledge s.clock).2).goto
    .waiting)
  := by
  obtain ⟨_, hfresh⟩ := hl.busy e _ h
  refine hl.move h rfl rfl ?_ ?_
  · intro e' hne
    exact kept_of_eq (envelopes_update_of_ne s _ hne) rfl rfl rfl
  · right
    refine ⟨rfl, ?_⟩
    right
    have hself := envelopes_update_self s e
      ({ s.envelopes e with error := some error }.acknowledge s.clock).2
    rcases acknowledge_eq { s.envelopes e with error := some error } s.clock hfresh.state with
      heq | heq
    · left
      rw [heq] at hself ⊢
      refine ⟨?_, ?_, hfresh.uncommitted, hfresh.undriven⟩
      · exact congrArg Envelope.state hself
      · rw [show ((s.update e _).goto .waiting).envelopes e = _ from hself]
        simp
    · right
      rw [heq] at hself ⊢
      refine ⟨congrArg Envelope.state hself, hfresh.undriven, ?_⟩
      intro hcommitted
      exact absurd hcommitted hfresh.uncommitted

/-- An execution of the machine changes neither a failed job nor one that the coordinator is about
to drive. -/
theorem Lives.machine (hl : Lives s) {jobId : String} {job : Job} {state : JobState}
    (h : s.jobs jobId = some job) (hprior : job.state ∈ [JobState.readyToRun, .recoveryRequired])
    (hlock : s.Unlocked) :
  Lives (s.write jobId { job with state := state, revision := job.revision + 1 })
  := by
  have hother : ∀ jobId' job', s.jobs jobId' = some job' →
      job'.state ∉ [JobState.readyToRun, .recoveryRequired] →
      (s.write jobId { job with state := state, revision := job.revision + 1 }).jobs jobId' =
        some job' := by
    intro jobId' job' hjob' hstate
    by_cases heq : jobId' = jobId
    · subst heq
      obtain rfl := Option.some.inj (h.symm.trans hjob')
      exact absurd hprior hstate
    · simpa [State.write, heq] using hjob'
  have hkept : ∀ e, Kept s (s.write jobId { job with
      state := state, revision := job.revision + 1 }) e := by
    intro e
    constructor
    · exact .inl rfl
    · intro job
      exact Iff.rfl
    · exact Iff.rfl
    · intro jobId' job' hjob' hfailed
      apply hother jobId' job' hjob'
      simp [hfailed]
  refine hl.rest (fun _ _ => Iff.rfl) rfl (fun _ => rfl) hkept ?_
  intro e stage hbusy hholds
  apply hholds.kept (hkept e)
  · intro hwriting
    exact absurd hwriting (hlock e stage hbusy)
  · intro job' hjob' hfailable
    exact hother _ job' hjob' hfailable.1

/-- A step of a run in which every rejected command finds its job at the revision that was read
before keeps the invariant. -/
theorem Lives.step (hl : Lives s) (hu : Undisturbed s) (h : Step timeout s s') :
  Lives s'
  := by
  cases h with
  | submit i command deadline h haccepting =>
      exact hl.submit command deadline rfl rfl rfl rfl rfl rfl rfl
  | abandon i e h =>
      have hkept : ∀ e', Kept s ((s.update e (s.envelopes e).abandonUnacknowledged.2).caller i
          (if (s.envelopes e).abandonUnacknowledged.1 then .timedOut e else .answered e)) e' := by
        intro e'
        constructor
        · by_cases heq : e' = e
          · subst heq
            simp only [State.caller, envelopes_update_self]
            apply lapses_abandonUnacknowledged
          · left
            apply envelopes_update_of_ne s _ heq
        · intro job
          exact Iff.rfl
        · exact Iff.rfl
        · intro jobId job hjob _
          exact hjob
      refine hl.rest (fun _ _ => Iff.rfl) rfl (fun _ => rfl) hkept ?_
      intro e' stage _ hholds
      apply hholds.kept (hkept e')
      · intro _
        rfl
      · intro job hjob _
        exact hjob
  | requestCancel jobId haccepting =>
      exact hl.idle rfl rfl (count_of_append _ (by simp)) rfl rfl rfl rfl
  | publishExternal jobId haccepting =>
      exact hl.idle rfl rfl (count_of_append _ (by simp)) rfl rfl rfl rfl
  | stop => exact hl.idle rfl rfl (count_of_append _ (by simp)) rfl rfl rfl rfl
  | machine jobId job state h hprior hresult hlock => exact hl.machine h hprior hlock
  | receive e mailbox h hmailbox => exact hl.receive h hmailbox
  | cancel jobId job mailbox h hmailbox hjob hallowed =>
      refine hl.rest (fun _ _ => Iff.rfl) rfl (count_of_cons hmailbox (by simp)) ?_ ?_
      · intro e
        constructor
        · exact .inl rfl
        · intro job
          exact Iff.rfl
        · exact Iff.rfl
        · apply failed_of_write
          intro job' hjob' hfailed
          obtain rfl := Option.some.inj (hjob.symm.trans hjob')
          rw [allowedTransition_ended (by simp [hfailed])] at hallowed
          cases hallowed
      · intro e stage hbusy
        rw [h] at hbusy
        cases hbusy
  | cancelSkip jobId mailbox h hmailbox =>
      exact hl.idle rfl rfl (count_of_cons hmailbox (by simp)) rfl rfl rfl rfl
  | published jobId mailbox h hmailbox =>
      exact hl.idle rfl rfl (count_of_cons hmailbox (by simp)) rfl rfl rfl rfl
  | getStop mailbox h hmailbox =>
      refine hl.rest ?_ rfl (count_of_cons hmailbox (by simp)) ?_ ?_
      · intro e stage
        simp [State.goto, h]
      · intro e
        exact kept_of_eq rfl rfl rfl rfl
      · intro e stage hbusy
        rw [h] at hbusy
        cases hbusy
  | skip e h habandoned =>
      obtain ⟨_, hfresh⟩ := hl.busy e _ h
      exact hl.goto h (.inr ⟨rfl, Fresh.settled hfresh habandoned⟩)
  | process e h habandoned =>
      obtain ⟨_, hfresh⟩ := hl.busy e _ h
      exact hl.goto h (.inl ⟨.reading, rfl, hfresh⟩)
  | read e h =>
      obtain ⟨_, hfresh⟩ := hl.busy e _ h
      exact hl.goto h (.inl ⟨.calling (s.job e), rfl, hfresh⟩)
  | validate e before target h htarget =>
      obtain ⟨_, hfresh⟩ := hl.busy e _ h
      exact hl.goto h (.inl ⟨.validated before (s.job e) target, rfl, hfresh, htarget⟩)
  | reject e before error h herror =>
      obtain ⟨_, hfresh⟩ := hl.busy e _ h
      exact hl.goto h (.inl ⟨.rejected before error, rfl, hfresh⟩)
  | raise e before current target error h =>
      rcases h with h | h
      · obtain ⟨_, hfresh, _⟩ := hl.busy e _ h
        exact hl.goto h (.inl ⟨.rejected before error, rfl, hfresh⟩)
      · obtain ⟨_, hfresh, _⟩ := hl.busy e _ h
        exact hl.goto h (.inl ⟨.rejected before error, rfl, hfresh⟩)
  | check e before current target h =>
      obtain ⟨_, hfresh, htarget⟩ := hl.busy e _ h
      apply hl.check h hfresh
      intro s' hkept hjobs
      refine ⟨hfresh.kept hkept, ?_⟩
      rw [hkept.envelope.data.1]
      exact htarget
  | transact e before current target h hcurrent =>
      obtain ⟨_, hfresh, htarget⟩ := hl.busy e _ h
      exact hl.goto h (.inl ⟨.transacting before current target, rfl, hfresh, htarget, hcurrent⟩)
  | checkCommit e before current target h =>
      obtain ⟨_, hfresh, htarget, hcurrent⟩ := hl.busy e _ h
      apply hl.check h hfresh
      intro s' hkept hjobs
      refine ⟨hfresh.kept hkept, ?_, ?_⟩
      · rw [hkept.envelope.data.1]
        exact htarget
      · unfold State.job
        rw [hkept.envelope.data.1, hjobs]
        exact hcurrent
  | commit e before current target h => exact hl.commit h
  | acknowledge e job h => exact hl.acknowledge h
  | drive e job h habandoned => exact hl.drive h habandoned
  | giveUp e job h habandoned =>
      obtain ⟨_, hpending, _, _⟩ := hl.busy e _ h
      exact hl.goto h (.inl ⟨.failing, rfl, .inr ⟨habandoned, job, hpending⟩⟩)
  | advance e job state blockerCode h hjob hallowed => exact hl.advance h hjob hallowed
  | driven e h =>
      obtain ⟨_, hdriven⟩ := hl.busy e _ h
      exact hl.goto h (.inr ⟨rfl, .inl hdriven⟩)
  | driveFails e h =>
      obtain ⟨_, hdriven⟩ := hl.busy e _ h
      exact hl.goto h (.inl ⟨.failing, rfl, .inl hdriven⟩)
  | fail e job h hjob => exact hl.fail h hjob
  | rejectedUnchanged e before error h hsame => exact hl.refuse h
  | rejectedChanged e before error h hsame =>
      rw [hu e before error h] at hsame
      cases hsame
  | completeMissing e error h hjob => exact absurd (hl.busy e _ h).2 id
  | complete e job error h hjob => exact absurd (hl.busy e _ h).2 id
  | _ => exact hl.idle rfl rfl (fun _ => rfl) rfl rfl rfl rfl

end JobCoordinator

end DrawingMachine
