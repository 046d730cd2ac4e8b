import DrawingMachine.Base.Numbering
import DrawingMachine.Service.JobAgreement

/-!
# The order of the job commands

Commands are numbered in the order of their submission. In this order their changes are committed
and their jobs are driven, whatever the other threads and the machine do meanwhile. What is
committed was computed from the job as it is stored at this moment.
-/

namespace DrawingMachine

namespace JobCoordinator

variable {timeout : Int} {s s' : State}

/-! ### The order of the commands -/

/-- The envelope of an item. -/
def Item.envelope? : Item → Option Nat
  | .envelope e => some e
  | _ => none

/-- The change of the command may be committed later. -/
def Stage.uncommitted : Stage → Bool
  | .received => true
  | .reading => true
  | .calling _ => true
  | .validated _ _ _ => true
  | .transacting _ _ _ => true
  | .permitted _ _ _ => true
  | _ => false

/-- The envelope that the thread has taken, and whose change may be committed later. -/
def Thread.uncommitted : Thread → Option Nat
  | .busy e stage => if stage.uncommitted then some e else none
  | _ => none

/-- The envelopes whose changes are committed, the one that the thread has taken, and those in the
mailbox, in this order. -/
def line (s : State) : List Nat :=
  (s.commits.map Prod.fst).reverse ++
    (s.thread.uncommitted.toList ++ s.mailbox.filterMap Item.envelope?)

/-- An envelope that leaves the line does not change the order of the others. -/
theorem line_sublist (hcommits : s'.commits = s.commits) (hmailbox : s'.mailbox.Sublist s.mailbox)
    (htaken : s'.thread.uncommitted = s.thread.uncommitted ∨ s'.thread.uncommitted = none) :
  (line s').Sublist (line s)
  := by
  unfold line
  rw [hcommits]
  apply List.Sublist.append_left
  apply List.Sublist.append
  · rcases htaken with htaken | htaken
    · rw [htaken]
    · rw [htaken]
      apply List.nil_sublist
  · apply hmailbox.filterMap

/-- What is no envelope does not lengthen the line. -/
theorem line_append (s : State) {item : Item} (hitem : item.envelope? = none) :
  line { s with mailbox := s.mailbox ++ [item] } = line s
  := by
  unfold line
  rw [List.filterMap_append, List.filterMap_cons, hitem, List.filterMap_nil, List.append_nil]

/-- A step puts at most a new envelope to the end of the line. -/
theorem Step.line (h : Step timeout s s') :
  (line s').Sublist (line s) ∧ s'.count = s.count ∨
    line s' = line s ++ [s.count] ∧ s'.count = s.count + 1
  := by
  cases h with
  | submit i command deadline h haccepting =>
      right
      simp [JobCoordinator.line, Item.envelope?]
  | requestCancel jobId haccepting =>
      left
      rw [line_append s rfl]
      exact ⟨List.Sublist.refl _, rfl⟩
  | publishExternal jobId haccepting =>
      left
      rw [line_append s rfl]
      exact ⟨List.Sublist.refl _, rfl⟩
  | stop =>
      left
      refine ⟨?_, rfl⟩
      change (JobCoordinator.line { s with mailbox := s.mailbox ++ [.stop] }).Sublist _
      rw [line_append s rfl]
  | receive e mailbox h hmailbox =>
      left
      simp [JobCoordinator.line, State.goto, h, hmailbox, Thread.uncommitted, Stage.uncommitted,
        Item.envelope?]
  | commit e before current target h =>
      left
      simp [JobCoordinator.line, State.goto, State.write, h, Thread.uncommitted,
        Stage.uncommitted]
  | cancel jobId job mailbox h hmailbox hjob hallowed =>
      left
      refine ⟨line_sublist rfl ?_ (.inl rfl), rfl⟩
      simp [hmailbox]
  | cancelSkip jobId mailbox h hmailbox =>
      left
      refine ⟨line_sublist rfl ?_ (.inl rfl), rfl⟩
      simp [hmailbox]
  | published jobId mailbox h hmailbox =>
      left
      refine ⟨line_sublist rfl ?_ (.inl rfl), rfl⟩
      simp [hmailbox]
  | getStop mailbox h hmailbox =>
      left
      refine ⟨line_sublist rfl ?_ (.inr rfl), rfl⟩
      simp [hmailbox]
  | check e before current target h =>
      left
      refine ⟨line_sublist rfl (List.Sublist.refl _) ?_, rfl⟩
      simp only [State.goto]
      split
      · left
        rw [h]
      · right
        rfl
  | checkCommit e before current target h =>
      left
      refine ⟨line_sublist rfl (List.Sublist.refl _) ?_, rfl⟩
      simp only [State.goto]
      split
      · left
        rw [h]
        rfl
      · right
        rfl
  | process e h habandoned =>
      left
      refine ⟨line_sublist rfl (List.Sublist.refl _) (.inl ?_), rfl⟩
      rw [h]
      rfl
  | read e h =>
      left
      refine ⟨line_sublist rfl (List.Sublist.refl _) (.inl ?_), rfl⟩
      rw [h]
      rfl
  | validate e before target h htarget =>
      left
      refine ⟨line_sublist rfl (List.Sublist.refl _) (.inl ?_), rfl⟩
      rw [h]
      rfl
  | transact e before current target h hcurrent =>
      left
      refine ⟨line_sublist rfl (List.Sublist.refl _) (.inl ?_), rfl⟩
      rw [h]
      rfl
  | _ =>
      left
      exact ⟨line_sublist rfl (List.Sublist.refl _) (by first | exact .inl rfl | exact .inr rfl),
        rfl⟩

/-! ### The jobs that are driven -/

/-- The change of the command is committed, and its job may be driven later. -/
def Stage.undriven : Stage → Bool
  | .committed _ => true
  | .answered _ => true
  | _ => false

/-- The envelope whose job may be driven later. -/
def Thread.undriven : Thread → Option Nat
  | .busy e stage => if stage.undriven then some e else none
  | _ => none

/-- The envelopes are driven in the order of their commits; the one at hand is the last that was
committed. -/
structure DrivenInOrder (s : State) : Prop where
  driven : s.driven.Sublist (s.commits.map Prod.fst)
  undriven : ∀ e ∈ s.thread.undriven, ∃ rest, s.commits.map Prod.fst = e :: rest ∧
    s.driven.Sublist rest

/-- A step that commits and drives nothing. -/
theorem DrivenInOrder.frame (hs : DrivenInOrder s) (hcommits : s'.commits = s.commits)
    (hdriven : s'.driven = s.driven)
    (hundriven : s'.thread.undriven = s.thread.undriven ∨ s'.thread.undriven = none) :
  DrivenInOrder s'
  := by
  constructor
  · rw [hcommits, hdriven]
    apply hs.driven
  · rw [hcommits, hdriven]
    rcases hundriven with h | h
    · rw [h]
      apply hs.undriven
    · rw [h]
      nofun

/-- Every step keeps the order of what is driven. -/
theorem DrivenInOrder.step (hs : DrivenInOrder s) (h : Step timeout s s') :
  DrivenInOrder s'
  := by
  cases h with
  | commit e before current target h =>
      constructor
      · apply hs.driven.cons
      · rintro _ ⟨⟩
        use s.commits.map Prod.fst, rfl, hs.driven
  | drive e job h habandoned =>
      obtain ⟨rest, hcommits, hsub⟩ := hs.undriven e (by rw [h]; rfl)
      constructor
      · change (e :: s.driven).Sublist (s.commits.map Prod.fst)
        rw [hcommits]
        apply hsub.cons_cons
      · nofun
  | acknowledge e job h =>
      refine hs.frame rfl rfl (.inl ?_)
      rw [h]
      rfl
  | check e before current target h =>
      refine hs.frame rfl rfl (.inr ?_)
      simp only [State.goto]
      split <;> rfl
  | checkCommit e before current target h =>
      refine hs.frame rfl rfl (.inr ?_)
      simp only [State.goto]
      split <;> rfl
  | _ => exact hs.frame rfl rfl (by first | exact .inl rfl | exact .inr rfl)

/-! ### The jobs that are stored -/

/-- A job is as it was, or it is new, or it has gone on by one revision from a state in which it
was not over. -/
def Advances (before after : Option Job) : Prop :=
  after = before ∨
    before = none ∧ (∃ job, after = some job ∧ job.state = .queued ∧ job.revision = 0) ∨
    ∃ job job', before = some job ∧ after = some job' ∧ job'.kind = job.kind ∧
      job'.revision = job.revision + 1 ∧ job.state ∉ [JobState.failed, .cancelled, .completed]

/-- The change of a command is new, or goes on from the job that the chain has found. -/
theorem advances_of_target {command : Command} {current : Option Job} {target : Job}
    (h : command.target current = .ok target) :
  Advances current (some target)
  := by
  unfold Command.target at h
  split at h
  · obtain rfl := Except.ok.inj h
    right
    left
    exact ⟨rfl, _, rfl, rfl, rfl⟩
  · obtain rfl := Except.ok.inj h
    right
    left
    exact ⟨rfl, _, rfl, rfl, rfl⟩
  · cases h
  · cases h
  · cases h
  · rename_i job hkind
    split at h
    · cases h
    · rename_i hblocked
      split at h
      · cases h
      · obtain rfl := Except.ok.inj h
        right
        right
        refine ⟨job, _, rfl, rfl, rfl, rfl, ?_⟩
        have hstate : job.state = .blocked := by
          by_contra hstate
          apply hblocked (.inl hstate)
        rw [hstate]
        decide

/-- An allowed transition begins in a state in which the job is not over. -/
theorem not_over_of_allowed {kind : JobKind} {state state' : JobState} {code : Option String}
    (h : allowedTransition state state' code kind = true) :
  state ∉ [JobState.failed, .cancelled, .completed]
  := by
  intro hover
  have hended : allowedTransition state state' code kind = false := by
    apply allowedTransition_ended
    simp only [List.mem_cons, List.not_mem_nil, or_false] at hover ⊢
    tauto
  rw [hended] at h
  cases h

/-- A job that is failed goes on, unless it is over. -/
theorem advances_failUnexpected (job : Job) :
  Advances (some job) (some (failUnexpected job))
  := by
  unfold failUnexpected
  split
  · left
    rfl
  · rename_i hover
    split
    · left
      rfl
    · right
      right
      exact ⟨job, _, rfl, rfl, rfl, rfl, hover⟩

/-- The chain has accepted the command at hand, and has not committed its change. -/
def Thread.accepted : Thread → Bool
  | .busy _ (.validated _ _ _) => true
  | .busy _ (.transacting _ _ _) => true
  | .busy _ (.permitted _ _ _) => true
  | _ => false

/-- The change at hand was computed from the job that the chain has read, and, in the transaction,
from the job that is stored. -/
def Computed (s : State) : Prop :=
  ∀ e stage, s.thread = .busy e stage →
    match stage with
    | .validated _ current target => (s.envelopes e).command.target current = .ok target
    | .transacting _ _ target => (s.envelopes e).command.target (s.job e) = .ok target
    | .permitted _ _ target => (s.envelopes e).command.target (s.job e) = .ok target
    | _ => True

/-- No change is at hand. -/
theorem Computed.of_not_accepted (h : s.thread.accepted = false) :
  Computed s
  := by
  intro e stage hthread
  rw [hthread] at h
  cases stage with
  | validated before current target => cases h
  | transacting before current target => cases h
  | permitted before current target => cases h
  | _ => trivial

/-- A check keeps the command of its envelope. -/
theorem command_commitAllowed (envelope : Envelope) (now : Int) :
  (envelope.commitAllowed now).2.command = envelope.command
  := by
  unfold Envelope.commitAllowed
  split
  · rfl
  · split <;> rfl

/-- An envelope that is given up keeps its command. -/
theorem command_abandonUnacknowledged (envelope : Envelope) :
  envelope.abandonUnacknowledged.2.command = envelope.command
  := by
  unfold Envelope.abandonUnacknowledged
  split <;> rfl

/-- An acknowledgement keeps the command of its envelope. -/
theorem command_acknowledge (envelope : Envelope) (now : Int) :
  (envelope.acknowledge now).2.command = envelope.command
  := by
  unfold Envelope.acknowledge
  split
  · rfl
  · split <;> rfl

/-- The commands of the envelopes that were submitted do not change. -/
theorem Step.command_eq (h : Step timeout s s') {e : Nat} (he : e < s.count) :
  (s'.envelopes e).command = (s.envelopes e).command
  := by
  have hupdate : ∀ (e' : Nat) (envelope : Envelope),
      envelope.command = (s.envelopes e').command →
      ((s.update e' envelope).envelopes e).command = (s.envelopes e).command := by
    intro e' envelope hcommand
    by_cases heq : e = e'
    · subst heq
      simp [State.update, hcommand]
    · simp [State.update, heq]
  cases h with
  | submit i command deadline h haccepting =>
      simp [Function.update_of_ne he.ne]
  | abandon i e' h =>
      apply hupdate
      rw [command_abandonUnacknowledged]
  | check e' before current target h =>
      apply hupdate
      rw [command_commitAllowed]
  | checkCommit e' before current target h =>
      apply hupdate
      rw [command_commitAllowed]
  | acknowledge e' job h =>
      apply hupdate
      rw [command_acknowledge]
  | rejectedUnchanged e' before error h hsame =>
      apply hupdate
      rw [command_acknowledge]
  | completeMissing e' error h hjob =>
      apply hupdate
      rw [command_acknowledge]
      rfl
  | complete e' job error h hjob =>
      apply hupdate
      rw [command_acknowledge]
      rfl
  | _ => rfl

/-- The thread keeps its stage, and, in a transaction, the job that is stored. -/
theorem Computed.frame (hc : Computed s) (h : Step timeout s s')
    (hcount : ∀ e ∈ s.thread.uncommitted, e < s.count) (hthread : s'.thread = s.thread)
    (hjobs : ∀ e stage, s.thread = .busy e stage → stage.Writing → s'.jobs = s.jobs) :
  Computed s'
  := by
  intro e stage hbusy
  rw [hthread] at hbusy
  have hold := hc e stage hbusy
  cases stage with
  | validated before current target =>
      change (s'.envelopes e).command.target current = .ok target
      rw [h.command_eq (hcount e (by rw [hbusy]; rfl))]
      exact hold
  | transacting before current target =>
      change (s'.envelopes e).command.target (s'.job e) = .ok target
      unfold State.job
      rw [h.command_eq (hcount e (by rw [hbusy]; rfl)), hjobs e _ hbusy trivial]
      exact hold
  | permitted before current target =>
      change (s'.envelopes e).command.target (s'.job e) = .ok target
      unfold State.job
      rw [h.command_eq (hcount e (by rw [hbusy]; rfl)), hjobs e _ hbusy trivial]
      exact hold
  | _ => trivial

/-- The command of an envelope after its check. -/
theorem command_update_check (s : State) (e : Nat) :
  ((s.update e ((s.envelopes e).commitAllowed s.clock).2).envelopes e).command =
    (s.envelopes e).command
  := by
  change (Function.update s.envelopes e _ e).command = _
  rw [Function.update_self, command_commitAllowed]

/-- A step of the thread between the lookup of the job and the end of the transaction, or any other
step, keeps what was computed. -/
theorem Computed.step (hc : Computed s) (hcount : ∀ e ∈ s.thread.uncommitted, e < s.count)
    (h : Step timeout s s') :
  Computed s'
  := by
  have hstep := h
  cases h with
  | validate e before target h htarget =>
      rintro _ _ ⟨⟩
      exact htarget
  | check e before current target h =>
      intro e' stage hbusy
      simp only [State.goto] at hbusy
      split at hbusy
      · obtain ⟨rfl, rfl⟩ := Thread.busy.inj hbusy
        change ((s.update e _).envelopes e).command.target current = .ok target
        rw [command_update_check]
        exact hc e _ h
      · cases hbusy
  | transact e before current target h hcurrent =>
      rintro _ _ ⟨⟩
      change (s.envelopes e).command.target (s.job e) = .ok target
      rw [hcurrent]
      exact hc e _ h
  | checkCommit e before current target h =>
      intro e' stage hbusy
      simp only [State.goto] at hbusy
      split at hbusy
      · obtain ⟨rfl, rfl⟩ := Thread.busy.inj hbusy
        change ((s.update e _).envelopes e).command.target
          (s.jobs ((s.update e _).envelopes e).command.jobId) = .ok target
        rw [command_update_check]
        exact hc e _ h
      · cases hbusy
  | machine jobId job state h hprior hresult hlock =>
      apply hc.frame hstep hcount rfl
      intro e stage hbusy hwriting
      apply absurd hwriting (hlock e stage hbusy)
  | advance e job state blockerCode h hjob hallowed =>
      apply hc.frame hstep hcount rfl
      intro e' stage hbusy hwriting
      rw [h] at hbusy
      obtain ⟨rfl, rfl⟩ := Thread.busy.inj hbusy
      cases hwriting
  | cancel jobId job mailbox h hmailbox hjob hallowed =>
      apply hc.frame hstep hcount rfl
      intro e stage hbusy hwriting
      rw [h] at hbusy
      cases hbusy
  | _ =>
      first
        | exact Computed.of_not_accepted rfl
        | exact hc.frame hstep hcount rfl (fun _ _ _ _ => rfl)

/-- One job is written. -/
theorem advances_write {jobId : String} {job : Job}
    (h : Advances (s.jobs jobId) (some job)) (jobId' : String) :
  Advances (s.jobs jobId') ((s.write jobId job).jobs jobId')
  := by
  by_cases heq : jobId' = jobId
  · subst heq
    simp only [State.write, Function.update_self]
    exact h
  · left
    simp [State.write, heq]

/-- Every step writes each job at most once, from the revision that is stored. -/
theorem Step.advances (hc : Computed s) (h : Step timeout s s') (jobId : String) :
  Advances (s.jobs jobId) (s'.jobs jobId)
  := by
  cases h with
  | machine jobId' job state h hprior hresult hlock =>
      apply advances_write
      rw [h]
      right
      right
      refine ⟨job, _, rfl, rfl, rfl, rfl, ?_⟩
      intro hover
      simp only [List.mem_cons, List.not_mem_nil, or_false] at hprior hover
      rcases hprior with hprior | hprior <;> rw [hprior] at hover <;> simp at hover
  | cancel jobId' job mailbox h hmailbox hjob hallowed =>
      apply advances_write
      rw [hjob]
      right
      right
      exact ⟨job, _, rfl, rfl, rfl, rfl, not_over_of_allowed hallowed⟩
  | commit e before current target h =>
      apply advances_write
      exact advances_of_target (hc e _ h)
  | advance e job state blockerCode h hjob hallowed =>
      apply advances_write
      rw [← State.job, hjob]
      right
      right
      exact ⟨job, _, rfl, rfl, rfl, rfl, not_over_of_allowed hallowed⟩
  | fail e job h hjob =>
      apply advances_write
      rw [← State.job, hjob]
      apply advances_failUnexpected
  | complete e job error h hjob =>
      apply advances_write
      rw [← State.job, hjob]
      apply advances_failUnexpected
  | _ =>
      left
      rfl

/-! ### Runs -/

/-- The order of the commands, and what was computed for the command at hand. -/
structure InOrder (s : State) : Prop where
  line : Numbered s.count (line s)
  driven : DrivenInOrder s
  computed : Computed s

/-- The command that the thread has taken was submitted. -/
theorem InOrder.uncommitted_lt (hs : InOrder s) :
  ∀ e ∈ s.thread.uncommitted, e < s.count
  := by
  intro e he
  apply hs.line.below
  apply List.mem_append_right
  apply List.mem_append_left
  rw [Option.mem_toList]
  exact he

/-- Every run keeps the order. -/
theorem Reachable.inOrder (h : Reachable timeout s) :
  InOrder s
  := by
  obtain ⟨clock, jobs, hrun⟩ := h
  induction hrun with
  | refl =>
      constructor
      · apply Numbered.nil
      · constructor
        · apply List.Sublist.refl
        · nofun
      · apply Computed.of_not_accepted rfl
  | tail _ hstep ih =>
      exact ⟨ih.line.step hstep.line, ih.driven.step hstep,
        ih.computed.step ih.uncommitted_lt hstep⟩

/-- In every state that a run of the clients, the coordinator, the machine, `stop` and the clock
reaches, the changes of the commands were committed in the order of their submission, each at most
once and before every command that still lies in the mailbox, and their jobs were driven in the same
order. No update is lost: whichever thread takes the next step, a stored job keeps its revision, or
it goes on by one from the revision that is stored; a job that is over stays as it is. -/
theorem commits_in_order (h : Reachable timeout s) :
  (s.commits.map Prod.fst).reverse.Pairwise (· < ·) ∧
    (∀ e ∈ s.commits.map Prod.fst, ∀ e', .envelope e' ∈ s.mailbox → e < e') ∧
    s.driven.reverse.Sublist (s.commits.map Prod.fst).reverse ∧
    ∀ s', Step timeout s s' → ∀ jobId, Advances (s.jobs jobId) (s'.jobs jobId)
  := by
  have hs := h.inOrder
  refine ⟨hs.line.front.increasing, ?_, hs.driven.driven.reverse, ?_⟩
  · intro e he e' he'
    apply hs.line.before (List.mem_reverse.mpr he)
    apply List.mem_append_right
    rw [List.mem_filterMap]
    use .envelope e', he'
    rfl
  · intro s' hstep jobId
    apply hstep.advances hs.computed

/-- The order in the run of a drawing. -/
theorem commits_in_order_sample :
  ∃ s, Reachable 1 s ∧ s.driven = [0] ∧
    s.driven.reverse.Sublist (s.commits.map Prod.fst).reverse
  := by
  obtain ⟨s, job, ⟨clock, jobs, hrun⟩, -, hdriven⟩ := exists_returned
  have hreachable : Reachable 1 s := by
    use clock, jobs
    exact Relation.ReflTransGen.mono (fun _ _ h => h.1) _ _ hrun
  obtain ⟨-, -, hsublist, -⟩ := commits_in_order hreachable
  exact ⟨s, hreachable, hdriven, hsublist⟩

end JobCoordinator

end DrawingMachine
