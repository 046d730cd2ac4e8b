import DrawingMachine.Service.JobCancellations

/-!
# The attribution of cancellations

A request is on its way to the chain in one place: with the call that registers it, in the
mailbox, or with the thread of the coordinator. It can only be settled as failed from there, and
only once. The chain knows the last request of every job that has one, also after that request
was settled as failed; as long as it does not look up such a request, every event that it
commits names a request that is outstanding, or the service when there is none.
-/

namespace DrawingMachine

namespace JobCancellation

variable {s s' : State}

/-! ### Where the requests are -/

/-- The request that the thread of the coordinator processes. -/
def Thread.wakes : Thread → List Nat
  | .processingCancel n => [n]
  | .cancelling n => [n]
  | .cancelled n _ => [n]
  | .recovering n => [n]
  | _ => []

/-- The request of a call of `request_cancel`. -/
def Holder.wakes : Holder → List Nat
  | .requestCancel n => [n]
  | .stop => []

/-- The request of a wake. -/
def Item.wakes : Item → List Nat
  | .cancelWake n => [n]
  | _ => []

/-- The requests in the mailbox. -/
def State.queued (s : State) : List Nat := s.mailbox.flatMap Item.wakes

/-- The request that is being registered. -/
def State.admitted (s : State) : List Nat := s.lock.elim [] Holder.wakes

/-- The requests that are not settled. -/
def State.pending (s : State) : List Nat := s.thread.wakes ++ (s.admitted ++ s.queued)

/-- An outstanding request is one that was registered for the job and not settled as failed. -/
theorem mem_outstanding_iff {jobId : String} {r : Request} :
  r ∈ s.outstanding jobId ↔ ∃ n < s.count, s.jobOf n = jobId ∧ n ∉ s.failed ∧ s.requests n = r
  := by
  simp only [State.outstanding, State.jobOf, List.mem_map, List.mem_filter, List.mem_range,
    decide_eq_true_eq]
  constructor
  · rintro ⟨n, ⟨hn, hjob, hfailed⟩, hr⟩
    exact ⟨n, hn, hjob, hfailed, hr⟩
  · rintro ⟨n, hn, hjob, hfailed, hr⟩
    exact ⟨n, ⟨hn, hjob, hfailed⟩, hr⟩

/-- The number is that of a request for the job that is outstanding. -/
structure Names (s : State) (jobId : String) (n : Nat) : Prop where
  lt : n < s.count
  jobId : s.jobOf n = jobId
  unsettled : n ∉ s.failed

/-- An event on behalf of an outstanding request is attributed. -/
theorem Names.attributed {jobId : String} {n : Nat} (h : Names s jobId n) :
  CancelledEvent.Attributed
    ⟨jobId, (s.requests n).requestId, (s.requests n).requester, s.outstanding jobId⟩
  := by
  left
  use s.requests n, mem_outstanding_iff.mpr ⟨n, h.lt, h.jobId, h.unsettled, rfl⟩

/-! ### The invariant -/

/-- What is true of the requests in every state. -/
structure Sound (s : State) : Prop where
  failed_lt : ∀ n ∈ s.failed, n < s.count
  metadata : ∀ jobId n, s.metadata jobId = some n → n < s.count ∧ s.jobOf n = jobId
  unknown : ∀ jobId, s.metadata jobId = none → ∀ n < s.count, s.jobOf n ≠ jobId
  pending : ∀ n ∈ s.pending, Names s (s.jobOf n) n
  nodup : s.pending.Nodup
  named : ∀ jobId n, s.thread = .cancellingAs jobId (some n) → Names s jobId n
  service : ∀ jobId, s.thread = .cancellingAs jobId none → ∀ n < s.count, s.jobOf n ≠ jobId
  log : ∀ e ∈ s.log, e.Attributed

/-- It is true when the coordinator has started. -/
theorem sound_initial (jobs : String → Option JobCoordinator.Job) : Sound (initial jobs) := by
  constructor
  · intro n hn
    cases hn
  · intro jobId n h
    cases h
  · intro jobId _ n hn
    cases hn
  · intro n hn
    cases hn
  · apply List.nodup_nil
  · intro jobId n h
    cases h
  · intro jobId h
    cases h
  · intro e he
    cases he

/-- The requests, and what is known of them, stay as they are. -/
structure Frame (s s' : State) : Prop where
  requests : s'.requests = s.requests
  count : s'.count = s.count
  failed : s'.failed = s.failed
  metadata : s'.metadata = s.metadata

/-- Whether a request is outstanding for a job does not change. -/
theorem Frame.names_iff (h : Frame s s') {jobId : String} {n : Nat} :
  Names s' jobId n ↔ Names s jobId n
  := by
  have hjob : s'.jobOf n = s.jobOf n := by rw [State.jobOf, State.jobOf, h.requests]
  constructor
  · rintro ⟨hlt, hid, hfailed⟩
    exact ⟨h.count ▸ hlt, hjob ▸ hid, h.failed ▸ hfailed⟩
  · rintro ⟨hlt, hid, hfailed⟩
    exact ⟨h.count ▸ hlt, hjob ▸ hid, h.failed ▸ hfailed⟩

/-- The invariant after a step that leaves the requests as they are. -/
theorem Sound.frame (hs : Sound s) (h : Frame s s')
    (hpending : ∀ n ∈ s'.pending, n ∈ s.pending) (hnodup : s'.pending.Nodup)
    (hnamed : ∀ jobId n, s'.thread = .cancellingAs jobId (some n) → Names s jobId n)
    (hservice : ∀ jobId, s'.thread = .cancellingAs jobId none → ∀ n < s.count, s.jobOf n ≠ jobId)
    (hlog : ∀ e ∈ s'.log, e.Attributed) :
  Sound s'
  := by
  have hjob : s'.jobOf = s.jobOf := by
    funext n
    rw [State.jobOf, State.jobOf, h.requests]
  constructor
  · rw [h.failed, h.count]
    exact hs.failed_lt
  · rw [h.metadata, h.count, hjob]
    exact hs.metadata
  · rw [h.metadata, h.count, hjob]
    exact hs.unknown
  · intro n hn
    rw [h.names_iff, hjob]
    apply hs.pending n (hpending n hn)
  · exact hnodup
  · intro jobId n hthread
    rw [h.names_iff]
    apply hnamed jobId n hthread
  · rw [h.count, hjob]
    exact hservice
  · exact hlog

/-- The thread does not cancel a job that it drives. -/
def Thread.Free : Thread → Prop
  | .cancellingAs _ _ => False
  | _ => True

/-- A thread that does not is not at such a place. -/
theorem Thread.Free.ne {t : Thread} (h : t.Free) (jobId : String) (identity : Option Nat) :
  t ≠ .cancellingAs jobId identity
  := by
  rintro rfl
  exact h

/-- The invariant after a step of the thread of the coordinator to where it does not cancel a
job that it drives. -/
theorem Sound.moved (hs : Sound s) (h : Frame s s') (hlock : s'.lock = s.lock)
    (hqueued : s'.queued = s.queued) (hfree : s'.thread.Free)
    (hwakes : s'.thread.wakes.Sublist s.thread.wakes) (hlog : ∀ e ∈ s'.log, e.Attributed) :
  Sound s'
  := by
  have hpending : s'.pending.Sublist s.pending := by
    rw [State.pending, State.pending, State.admitted, State.admitted, hlock, hqueued]
    apply hwakes.append_right
  apply hs.frame h
  · intro n hn
    apply hpending.subset hn
  · apply hs.nodup.sublist hpending
  · intro jobId n hthread
    exact absurd hthread (hfree.ne jobId (some n))
  · intro jobId hthread
    exact absurd hthread (hfree.ne jobId none)
  · exact hlog

/-- The invariant after a step to where the thread of the coordinator processes no request, and
commits nothing. -/
theorem Sound.idle (hs : Sound s) (h : Frame s s') (hlock : s'.lock = s.lock)
    (hqueued : s'.queued = s.queued) (hfree : s'.thread.Free) (hwakes : s'.thread.wakes = [])
    (hlog : s'.log = s.log) :
  Sound s'
  := by
  apply hs.moved h hlock hqueued hfree
  · rw [hwakes]
    apply List.nil_sublist
  · rw [hlog]
    exact hs.log

/-- The invariant after a step of another thread than that of the coordinator. -/
theorem Sound.beside (hs : Sound s) (h : Frame s s') (hthread : s'.thread = s.thread)
    (hpending : s'.pending.Perm s.pending) (hlog : s'.log = s.log) :
  Sound s'
  := by
  apply hs.frame h
  · intro n hn
    apply hpending.subset hn
  · apply hpending.nodup_iff.mpr hs.nodup
  · rw [hthread]
    exact hs.named
  · rw [hthread]
    exact hs.service
  · rw [hlog]
    exact hs.log

/-! ### The steps that move requests -/

/-- The invariant when a request is registered. -/
theorem Sound.register (hs : Sound s) {request : Request} (hlock : s.lock = none)
    (hlate : s.thread ≠ .cancellingAs request.jobId none) {tokens : String → Option Bool} :
  Sound
    { s with
      requests := Function.update s.requests s.count request
      count := s.count + 1
      tokens := tokens
      metadata := Function.update s.metadata request.jobId (some s.count)
      lock := some (.requestCancel s.count) }
  := by
  set s' : State :=
    { s with
      requests := Function.update s.requests s.count request
      count := s.count + 1
      tokens := tokens
      metadata := Function.update s.metadata request.jobId (some s.count)
      lock := some (.requestCancel s.count) } with hs'
  have hold : ∀ n < s.count, s'.jobOf n = s.jobOf n := by
    intro n hn
    simp only [hs', State.jobOf, Function.update_of_ne (Nat.ne_of_lt hn)]
  have hnew : s'.jobOf s.count = request.jobId := by
    simp only [hs', State.jobOf, Function.update_self]
  have hnames : ∀ jobId n, Names s jobId n → Names s' jobId n := by
    rintro jobId n ⟨hlt, hid, hfailed⟩
    exact ⟨Nat.lt_succ_of_lt hlt, (hold n hlt).trans hid, hfailed⟩
  have hpending : s'.pending = s.thread.wakes ++ s.count :: s.queued := rfl
  have hbefore : s.pending = s.thread.wakes ++ s.queued := by
    simp [State.pending, State.admitted, hlock]
  have hfresh : s.count ∉ s.pending := by
    intro hmem
    apply Nat.lt_irrefl _ (hs.pending _ hmem).lt
  constructor
  · intro n hn
    apply Nat.lt_succ_of_lt (hs.failed_lt n hn)
  · intro jobId n hmetadata
    by_cases hid : jobId = request.jobId
    · subst hid
      simp only [hs', Function.update_self, Option.some.injEq] at hmetadata
      subst hmetadata
      exact ⟨Nat.lt_succ_self _, hnew⟩
    · simp only [hs', Function.update_of_ne hid] at hmetadata
      obtain ⟨hlt, hjob⟩ := hs.metadata jobId n hmetadata
      exact ⟨Nat.lt_succ_of_lt hlt, (hold n hlt).trans hjob⟩
  · intro jobId hmetadata n hn
    have hid : jobId ≠ request.jobId := by
      rintro rfl
      simp [hs'] at hmetadata
    simp only [hs', Function.update_of_ne hid] at hmetadata
    rcases Nat.lt_succ_iff_lt_or_eq.mp hn with hlt | rfl
    · rw [hold n hlt]
      apply hs.unknown jobId hmetadata n hlt
    · rw [hnew]
      exact hid.symm
  · intro n hn
    rw [hpending, List.mem_append, List.mem_cons] at hn
    by_cases hnew' : n = s.count
    · subst hnew'
      refine ⟨Nat.lt_succ_self _, rfl, ?_⟩
      intro hfailed
      apply Nat.lt_irrefl _ (hs.failed_lt _ hfailed)
    · have hmem : n ∈ s.pending := by
        rw [hbefore, List.mem_append]
        tauto
      have hn' := hs.pending n hmem
      rw [hold n hn'.lt]
      apply hnames _ _ hn'
  · rw [hpending]
    apply List.nodup_middle.mpr
    apply List.nodup_cons.mpr
    rw [← hbefore]
    exact ⟨hfresh, hs.nodup⟩
  · intro jobId n hthread
    apply hnames _ _ (hs.named jobId n hthread)
  · intro jobId hthread n hn
    rcases Nat.lt_succ_iff_lt_or_eq.mp hn with hlt | rfl
    · rw [hold n hlt]
      apply hs.service jobId hthread n hlt
    · rw [hnew]
      rintro rfl
      exact hlate hthread
  · exact hs.log

/-- The invariant when the cancellation of a request is settled as failed. -/
theorem Sound.settle (hs : Sound s) {n : Nat} (hthread : s.thread = .recovering n)
    (hrequests : s'.requests = s.requests) (hcount : s'.count = s.count)
    (hfailed : s'.failed = n :: s.failed) (hmetadata : s'.metadata = s.metadata)
    (hfree : s'.thread.Free) (hpending : s'.pending = s.admitted ++ s.queued)
    (hlog : s'.log = s.log) :
  Sound s'
  := by
  have hjob : s'.jobOf = s.jobOf := by
    funext m
    rw [State.jobOf, State.jobOf, hrequests]
  have hbefore : s.pending = n :: s'.pending := by
    rw [hpending, State.pending, hthread]
    rfl
  obtain ⟨hfresh, hnodup⟩ := List.nodup_cons.mp (hbefore ▸ hs.nodup)
  have hn := hs.pending n (by rw [hbefore]; exact List.mem_cons_self)
  constructor
  · rw [hfailed, hcount]
    intro m hm
    rcases List.mem_cons.mp hm with rfl | hm
    · exact hn.lt
    · apply hs.failed_lt m hm
  · rw [hmetadata, hcount, hjob]
    exact hs.metadata
  · rw [hmetadata, hcount, hjob]
    exact hs.unknown
  · intro m hm
    obtain ⟨hlt, -, hunsettled⟩ := hs.pending m (by rw [hbefore]; exact List.mem_cons_of_mem n hm)
    refine ⟨hcount ▸ hlt, rfl, ?_⟩
    rw [hfailed, List.mem_cons, not_or]
    refine ⟨?_, hunsettled⟩
    rintro rfl
    exact hfresh hm
  · exact hnodup
  · intro jobId m h
    exact absurd h (hfree.ne jobId (some m))
  · intro jobId h
    exact absurd h (hfree.ne jobId none)
  · rw [hlog]
    exact hs.log

/-- The chain looks up who has cancelled a job. -/
theorem Sound.identify (hs : Sound s) {jobId : String} (hthread : s.thread = .identifying jobId)
    (hstale : ¬ Stale s jobId) :
  Sound (s.goto (.cancellingAs jobId (s.metadata jobId)))
  := by
  apply hs.frame
  · exact ⟨rfl, rfl, rfl, rfl⟩
  · intro n hn
    rw [State.pending, hthread]
    exact hn
  · have hnodup := hs.nodup
    rw [State.pending, hthread] at hnodup
    exact hnodup
  · intro jobId' n h
    simp only [State.goto, Thread.cancellingAs.injEq] at h
    obtain ⟨rfl, hmetadata⟩ := h
    obtain ⟨hlt, hjob⟩ := hs.metadata jobId n hmetadata
    refine ⟨hlt, hjob, ?_⟩
    intro hfailed
    exact hstale ⟨n, hmetadata, hfailed⟩
  · intro jobId' h
    simp only [State.goto, Thread.cancellingAs.injEq] at h
    obtain ⟨rfl, hmetadata⟩ := h
    apply hs.unknown jobId hmetadata
  · exact hs.log

/-- The log after a cancellation on behalf of an outstanding request. -/
theorem Sound.log_cancel (hs : Sound s) {jobId : String} {n : Nat} (h : Names s jobId n)
    (job : JobCoordinator.Job) :
  ∀ e ∈ (s.cancel jobId job (s.requests n).requestId (s.requests n).requester).log, e.Attributed
  := by
  intro e he
  rcases List.mem_cons.mp he with rfl | he
  · exact h.attributed
  · apply hs.log e he

/-- The log after a cancellation on behalf of the service, when no request was made. -/
theorem Sound.log_service (hs : Sound s) {jobId : String}
    (h : ∀ n < s.count, s.jobOf n ≠ jobId) (job : JobCoordinator.Job) (requestId : String) :
  ∀ e ∈ (s.cancel jobId job requestId .service).log, e.Attributed
  := by
  intro e he
  rcases List.mem_cons.mp he with rfl | he
  · right
    refine ⟨rfl, ?_⟩
    apply List.eq_nil_iff_forall_not_mem.mpr
    intro r hr
    obtain ⟨n, hn, hjob, -⟩ := mem_outstanding_iff.mp hr
    exact h n hn hjob
  · apply hs.log e he

/-- The invariant when the call of `request_cancel` puts its wake into the mailbox. -/
theorem Sound.enqueue (hs : Sound s) {n : Nat} (hlock : s.lock = some (.requestCancel n))
    {projections : String → Option Projection} :
  Sound
    { s with
      projections := projections, mailbox := s.mailbox ++ [.cancelWake n], lock := none }
  := by
  apply hs.beside
  · exact ⟨rfl, rfl, rfl, rfl⟩
  · rfl
  · simp only [State.pending, State.admitted, State.queued, hlock, Option.elim, Holder.wakes,
      List.flatMap_append, List.flatMap_cons, List.flatMap_nil, Item.wakes, List.append_nil,
      List.nil_append]
    apply List.Perm.append_left
    apply List.perm_append_comm
  · rfl

/-- The invariant when the thread of the coordinator takes a wake. -/
theorem Sound.takeWake (hs : Sound s) {n : Nat} {mailbox : List Item} (hthread : s.thread = .waiting)
    (hmailbox : s.mailbox = .cancelWake n :: mailbox) :
  Sound { s.goto (.processingCancel n) with mailbox := mailbox }
  := by
  have hpending : s.pending = s.admitted ++ n :: mailbox.flatMap Item.wakes := by
    simp [State.pending, State.queued, hthread, hmailbox, Thread.wakes, Item.wakes]
  have hperm : (n :: (s.admitted ++ mailbox.flatMap Item.wakes)).Perm s.pending := by
    rw [hpending]
    apply List.perm_middle.symm
  apply hs.frame
  · exact ⟨rfl, rfl, rfl, rfl⟩
  · intro m hm
    apply hperm.subset hm
  · apply hperm.nodup_iff.mpr hs.nodup
  · intro jobId m h
    cases h
  · intro jobId h
    cases h
  · exact hs.log

/-- A flag is cleared, and nothing else changes. -/
theorem State.clear_eq (s : State) (jobId : String) :
  ∃ tokens, s.clear jobId = { s with tokens := tokens }
  := by
  unfold State.clear
  split
  · exact ⟨s.tokens, rfl⟩
  · exact ⟨_, rfl⟩

/-- An undisturbed step keeps the invariant. -/
theorem Sound.step (hs : Sound s) (h : Step s s') (hu : Undisturbed s s') : Sound s' := by
  cases h with
  | register request projection hlock haccepting hid hprojection hallowed =>
      apply hs.register hlock
      intro hthread
      apply hu.late request.jobId hthread
      exact ⟨rfl, by simp [State.jobOf]⟩
  | enqueue n hlock => apply hs.enqueue hlock
  | takeWake n mailbox hthread hmailbox => apply hs.takeWake hthread hmailbox
  | recoverMissing n hthread hlock hjob =>
      exact hs.settle hthread rfl rfl rfl rfl trivial rfl rfl
  | recover n job hthread hlock hjob hstate =>
      obtain ⟨tokens, htokens⟩ := s.clear_eq (s.jobOf n)
      rw [htokens]
      exact hs.settle hthread rfl rfl rfl rfl trivial rfl rfl
  | recoverRaises n hthread hlock hprojection =>
      obtain ⟨tokens, htokens⟩ := s.clear_eq (s.jobOf n)
      rw [htokens]
      exact hs.settle hthread rfl rfl rfl rfl trivial rfl rfl
  | recoverEnds n projection hthread hlock hprojection =>
      obtain ⟨tokens, htokens⟩ := s.clear_eq (s.jobOf n)
      rw [htokens]
      exact hs.settle hthread rfl rfl rfl rfl trivial rfl rfl
  | identify jobId hthread => apply hs.identify hthread (hu.stale jobId hthread)
  | cancelCommit n job hthread hjob hended hallowed =>
      have hn : n ∈ s.pending := by
        apply List.mem_append_left
        rw [hthread]
        apply List.mem_singleton_self
      refine hs.moved ⟨rfl, rfl, rfl, rfl⟩ rfl rfl trivial ?_ (hs.log_cancel (hs.pending n hn) job)
      rw [hthread]
      apply List.Sublist.refl
  | driveCancel jobId n job hthread hjob hallowed =>
      exact hs.moved ⟨rfl, rfl, rfl, rfl⟩ rfl rfl trivial (List.nil_sublist _)
        (hs.log_cancel (hs.named jobId n hthread) job)
  | serviceCancel jobId requestId job hthread hjob hallowed =>
      exact hs.moved ⟨rfl, rfl, rfl, rfl⟩ rfl rfl trivial (List.nil_sublist _)
        (hs.log_service (hs.service jobId hthread) job requestId)
  -- The other threads.
  | submit command hlock haccepting =>
      refine hs.beside ⟨rfl, rfl, rfl, rfl⟩ rfl ?_ rfl
      simp [State.pending, State.admitted, State.queued, State.setDefault, Item.wakes]
  | publishExternal jobId hlock haccepting =>
      refine hs.beside ⟨rfl, rfl, rfl, rfl⟩ rfl ?_ rfl
      simp [State.pending, State.admitted, State.queued, Item.wakes]
  | stopBegin hlock =>
      refine hs.beside ⟨rfl, rfl, rfl, rfl⟩ rfl ?_ rfl
      simp [State.pending, State.admitted, State.queued, hlock, Holder.wakes]
  | stopToken jobId hlock => exact hs.beside ⟨rfl, rfl, rfl, rfl⟩ rfl (List.Perm.refl _) rfl
  | stopEnd hlock htokens =>
      refine hs.beside ⟨rfl, rfl, rfl, rfl⟩ rfl ?_ rfl
      simp [State.pending, State.admitted, State.queued, hlock, Holder.wakes, Item.wakes]
  | machine jobId job state hjob hprior hresult =>
      exact hs.beside ⟨rfl, rfl, rfl, rfl⟩ rfl (List.Perm.refl _) rfl
  -- The thread of the coordinator takes another item.
  | takeStop mailbox hthread hmailbox =>
      refine hs.idle ⟨rfl, rfl, rfl, rfl⟩ rfl ?_ trivial rfl rfl
      simp [State.queued, hmailbox, Item.wakes]
  | takeCommand command mailbox hthread hlock hmailbox =>
      refine hs.idle ⟨rfl, rfl, rfl, rfl⟩ rfl ?_ trivial rfl rfl
      simp [State.queued, hmailbox, Item.wakes]
  | takeExternal jobId mailbox hthread hmailbox =>
      refine hs.beside ⟨rfl, rfl, rfl, rfl⟩ rfl ?_ rfl
      simp [State.pending, State.admitted, State.queued, hmailbox, Item.wakes]
  | takePublished jobId job mailbox hthread hlock hmailbox hjob =>
      refine hs.beside ⟨rfl, rfl, rfl, rfl⟩ rfl ?_ rfl
      simp [State.pending, State.admitted, State.queued, State.project, hmailbox, Item.wakes]
  | takeAbandoned command mailbox hthread hmailbox =>
      refine hs.beside ⟨rfl, rfl, rfl, rfl⟩ rfl ?_ rfl
      simp [State.pending, State.admitted, State.queued, hmailbox, Item.wakes]
  -- It goes on with the request that it processes.
  | wakeCancel n projection hthread hlock hprojection hstate =>
      refine hs.moved ⟨rfl, rfl, rfl, rfl⟩ rfl rfl trivial ?_ hs.log
      rw [hthread]
      apply List.Sublist.refl
  | cancelEnded n job hthread hjob hended =>
      refine hs.moved ⟨rfl, rfl, rfl, rfl⟩ rfl rfl trivial ?_ hs.log
      rw [hthread]
      apply List.Sublist.refl
  | cancelRaises n hthread =>
      refine hs.moved ⟨rfl, rfl, rfl, rfl⟩ rfl rfl trivial ?_ hs.log
      rcases hthread with hthread | ⟨job, hthread⟩ <;>
      · rw [hthread]
        apply List.Sublist.refl
  -- The steps that end the processing of a request, and those that have to do with none.
  | _ => exact hs.idle ⟨rfl, rfl, rfl, rfl⟩ rfl rfl trivial rfl rfl

/-! ### Runs -/

/-- A job that waits for its review. -/
def blockedJob : JobCoordinator.Job := ⟨.offlineWorkflow, .blocked, 4, some "REVIEW_REQUIRED"⟩

/-- The job after its review. -/
def reviewedJob : JobCoordinator.Job := ⟨.offlineWorkflow, .imageReady, 5, none⟩

/-- A request of a client to cancel the job. -/
def sampleRequest : Request := ⟨"job-1", "request-1", .localPeer 7 1000 1000⟩

/-- A worker reports that the job was cancelled, the chain finds nobody who has done it, and a
client registers its request: the job is cancelled on behalf of the service. -/
theorem exists_late_registration :
  ∃ s requestId, Reachable s ∧ s.log = [⟨"job-1", requestId, .service, [sampleRequest]⟩]
  := by
  have hlive : (initial fun _ => some blockedJob).thread ≠ .exited := by simp [initial]
  have hsubmitted : Relation.ReflTransGen Step (initial fun _ => some blockedJob) _ :=
    Relation.ReflTransGen.refl.tail
      (.submit ⟨.continueReview, "job-1"⟩ rfl ⟨hlive, rfl⟩)
  have hreceived := hsubmitted.tail (.takeCommand ⟨.continueReview, "job-1"⟩ [] rfl rfl rfl)
  have hcommitted := hreceived.tail (.commit _ reviewedJob rfl rfl)
  have hdriving := (hcommitted.tail (.acknowledge "job-1" reviewedJob rfl rfl)).tail
    (.publish "job-1" reviewedJob rfl rfl)
  have hworking := hdriving.tail (.work "job-1" reviewedJob rfl (by decide) nofun)
  have hidentified := (hworking.tail (.workerCancelled "job-1" rfl)).tail (.identify "job-1" rfl)
  have hregistered := hidentified.tail
    (.register sampleRequest ⟨reviewedJob, false⟩ rfl ⟨nofun, rfl⟩ (by decide) rfl (by decide))
  have hcancelled := hregistered.tail
    (.serviceCancel "job-1" "cancel-1" reviewedJob rfl rfl (by decide))
  exact ⟨_, _, ⟨fun _ => some blockedJob, hcancelled⟩, rfl⟩

end JobCancellation

end DrawingMachine
