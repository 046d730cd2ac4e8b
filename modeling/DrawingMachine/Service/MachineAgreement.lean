import DrawingMachine.Service.MachineSteps

/-!
# The agreement of the machine coordinator with its submitters

The invariants say what the chain has answered, what is driven, how a call that times out ends,
and how the coordinator ends. They hold in every state that the threads and the clock reach, in
whatever order they take their steps.
-/

namespace DrawingMachine

namespace MachineCoordinator

variable {ρ ε : Type} {timeout : Int} {stoppedError withdrawnError : ε} {s s' : State ρ ε}

/-! ### What the chain answers -/

/-- A submitter has the result of the one admission of its command. -/
structure Answers (s : State ρ ε) : Prop where
  passed : ∀ a ∈ s.admissions, a.1 ∈ s.passed
  once : (s.admissions.map Prod.fst).Nodup
  fresh : ∀ e n, s.thread = .admitting e n → e ∉ s.admissions.map Prod.fst
  admitted : ∀ e result drives, s.thread = .admitted e result drives → (e, result) ∈ s.admissions
  result : ∀ e result, (s.envelopes e).result = some result → (e, result) ∈ s.admissions
  callers : ∀ i e result, (s.callers i).result = some (e, result) → (e, result) ∈ s.admissions

/-- The admissions stay. -/
theorem Step.admissions_subset (h : Step timeout stoppedError withdrawnError s s') :
  s.admissions ⊆ s'.admissions
  := by
  rcases h.admissions with ⟨heq, _⟩ | ⟨_, _, _, _, heq⟩ | ⟨_, _, _, _, _, _, _, heq⟩
  · rw [heq]
    apply List.Subset.refl
  · rw [heq]
    apply List.Subset.refl
  · rw [heq]
    apply List.subset_cons_self

/-- A command that was not passed to the chain was not admitted. -/
theorem Answers.not_mem_of_not_passed (ha : Answers s) {e : Nat} (h : e ∉ s.passed) :
  e ∉ s.admissions.map Prod.fst
  := by
  intro hmem
  obtain ⟨a, hadmitted, rfl⟩ := List.mem_map.mp hmem
  apply h (ha.passed a hadmitted)

/-- A command that is being admitted was passed to the chain. -/
theorem Placed.passed_of_serves (hs : Placed s) {e : Nat} (h : s.thread.serves = some e)
    (hclaimed : s.thread ≠ .claimed e) :
  e ∈ s.passed
  := by
  obtain ⟨hlt, hbegun⟩ := hs.serves e h
  apply (hs.begun e hlt hbegun).resolve_right hclaimed

/-- There are no answers when the thread is started. -/
theorem initial_answers (clock : Int) :
  Answers (initial clock : State ρ ε)
  := by
  constructor
  · intro a h
    cases h
  · apply List.nodup_nil
  · intro e n h
    cases h
  · intro e result drives h
    cases h
  · intro e result h
    cases h
  · intro i e result h
    cases h

/-- Every step keeps the answers. -/
theorem Answers.step (ha : Answers s) (hs : Placed s)
    (h : Step timeout stoppedError withdrawnError s s') :
  Answers s'
  := by
  have hsubset := h.admissions_subset
  constructor
  · rcases h.admissions with ⟨heq, hpassed⟩ | ⟨e, _, _, hpassed, heq⟩ |
      ⟨e, n, _, _, hthread, _, hpassed, heq⟩
    · rw [heq, hpassed]
      apply ha.passed
    · rw [heq, hpassed]
      intro a hmem
      apply List.mem_cons_of_mem
      apply ha.passed a hmem
    · rw [heq, hpassed]
      intro a hmem
      rcases List.mem_cons.mp hmem with rfl | hmem
      · apply hs.passed_of_serves <;> simp [hthread, Thread.serves]
      · apply ha.passed a hmem
  · rcases h.admissions with ⟨heq, _⟩ | ⟨_, _, _, _, heq⟩ | ⟨e, n, _, _, hthread, _, _, heq⟩
    · rw [heq]
      apply ha.once
    · rw [heq]
      apply ha.once
    · rw [heq, List.map_cons, List.nodup_cons]
      use ha.fresh e n hthread
      apply ha.once
  · intro e n hthread
    rcases h.admissions with ⟨heq, _⟩ | ⟨e', hclaimed, hthread', _, heq⟩ |
      ⟨e', _, _, _, _, hthread', _, _⟩
    · rw [heq]
      rcases h.admitting hthread with ⟨hsame, _⟩ | ⟨hclaimed, _⟩ | ⟨m, hsame, _⟩
      · apply ha.fresh e n hsame
      · apply ha.not_mem_of_not_passed (hs.claimed e hclaimed)
      · apply ha.fresh e m hsame
    · rw [hthread'] at hthread
      cases hthread
      rw [heq]
      apply ha.not_mem_of_not_passed (hs.claimed e hclaimed)
    · rw [hthread'] at hthread
      cases hthread
  · intro e result drives hthread
    rcases h.admitted hthread with hsame | ⟨_, heq, _⟩
    · apply hsubset (ha.admitted e result drives hsame)
    · rw [heq]
      apply List.mem_cons_self
  · intro e result hresult
    rcases h.result hresult with hsame | ⟨drives, hthread⟩
    · apply hsubset (ha.result e result hsame)
    · apply hsubset (ha.admitted e result drives hthread)
  · intro i e result hcaller
    rcases h.caller hcaller with hsame | hresult
    · apply hsubset (ha.callers i e result hsame)
    · apply hsubset (ha.result e result hresult)

/-! ### What is driven -/

/-- A command was found still requested, before its deadline, at each of its checks. -/
def Requested (s : State ρ ε) (e n : Nat) : Prop :=
  n ≤ (s.checks.filter (fun c => c.1 = e)).length ∧
    ∀ c ∈ s.checks, c.1 = e → c.2.2 = true ∧ c.2.1 < (s.envelopes e).deadline

/-- The command that the chain admits, or whose admission is not published. -/
def Thread.answering : Thread ρ ε → Option Nat
  | .admitting e _ => some e
  | .admitted e _ _ => some e
  | .acknowledged e _ => some e
  | _ => none

/-- A command is driven once, and was found still requested before its deadline. -/
structure Drives (s : State ρ ε) : Prop where
  passed : ∀ c ∈ s.checks, c.1 ∈ s.passed
  admitting : ∀ e n, s.thread = .admitting e n → Requested s e n
  admitted : ∀ e result drives, s.thread = .admitted e result drives →
    Requested s e (if drives then 2 else 1)
  acknowledged : ∀ e drives, s.thread = .acknowledged e drives →
    Requested s e (if drives then 2 else 1)
  driven : ∀ e ∈ s.driven, e ∈ s.passed ∧ Requested s e 2
  fresh : ∀ e, s.thread.answering = some e → e ∉ s.driven
  once : s.driven.Nodup

/-- A step without a check keeps what was found. -/
theorem Requested.of_checks {e n : Nat} (hr : Requested s e n) (he : e < s.count)
    (h : Step timeout stoppedError withdrawnError s s') (hchecks : s'.checks = s.checks) :
  Requested s' e n
  := by
  unfold Requested
  rw [hchecks, h.deadline he]
  exact hr

/-- The check of another command keeps what was found. -/
theorem Requested.step {e n : Nat} (hr : Requested s e n) (he : e < s.count)
    (h : Step timeout stoppedError withdrawnError s s')
    (hother : ∀ n, s.thread ≠ .admitting e n) :
  Requested s' e n
  := by
  rcases h.checks with hchecks | ⟨e', m, hthread, hchecks⟩
  · apply hr.of_checks he h hchecks
  · have hne : e' ≠ e := by
      rintro rfl
      apply hother m hthread
    obtain ⟨hlength, hall⟩ := hr
    unfold Requested
    rw [hchecks, h.deadline he]
    constructor
    · simpa [List.filter_cons, hne] using hlength
    · intro c hc heq
      rcases List.mem_cons.mp hc with rfl | hc
      · apply absurd heq hne
      · apply hall c hc heq

/-- A command that is found still requested once more. -/
theorem Requested.check {e n : Nat} (hr : Requested s e n) (he : e < s.count)
    (h : Step timeout stoppedError withdrawnError s s')
    (hrequested : (s.envelopes e).stillRequested s.clock = true)
    (hchecks : s'.checks = (e, s.clock, true) :: s.checks) :
  Requested s' e (n + 1)
  := by
  obtain ⟨hlength, hall⟩ := hr
  have htime : (s.envelopes e).state = .admitting ∧ s.clock < (s.envelopes e).deadline := by
    simpa [Envelope.stillRequested] using hrequested
  unfold Requested
  rw [hchecks, h.deadline he]
  constructor
  · simpa [List.filter_cons] using hlength
  · intro c hc heq
    rcases List.mem_cons.mp hc with rfl | hc
    · exact ⟨rfl, htime.2⟩
    · apply hall c hc heq

/-- A command that the chain was not asked for has no checks. -/
theorem Drives.requested_zero (hd : Drives s) {e : Nat} (h : e ∉ s.passed) :
  Requested s e 0
  := by
  constructor
  · apply Nat.zero_le
  · intro c hc heq
    subst heq
    apply absurd (hd.passed c hc) h

/-- A command is answered when it was, or is passed to the chain. -/
theorem Step.answering (h : Step timeout stoppedError withdrawnError s s') {e : Nat}
    (hanswering : s'.thread.answering = some e) :
  s.thread.answering = some e ∨ s.thread = .claimed e
  := by
  cases hthread : s'.thread with
  | admitting e' n =>
      rw [hthread] at hanswering
      obtain rfl := Option.some.inj hanswering
      rcases h.admitting hthread with ⟨hsame, _⟩ | ⟨hclaimed, _⟩ | ⟨m, hsame, _⟩
      · left
        rw [hsame]
        rfl
      · exact .inr hclaimed
      · left
        rw [hsame]
        rfl
  | admitted e' result drives =>
      rw [hthread] at hanswering
      obtain rfl := Option.some.inj hanswering
      left
      rcases h.admitted hthread with hsame | ⟨⟨n, hsame, _⟩, _⟩ <;>
      · rw [hsame]
        rfl
  | acknowledged e' drives =>
      rw [hthread] at hanswering
      obtain rfl := Option.some.inj hanswering
      left
      rcases h.acknowledging hthread with hsame | ⟨result, hsame⟩ <;>
      · rw [hsame]
        rfl
  | _ =>
      rw [hthread] at hanswering
      cases hanswering

/-- The commands that were passed to the chain stay. -/
theorem Step.passed_subset (h : Step timeout stoppedError withdrawnError s s') :
  s.passed ⊆ s'.passed
  := by
  rcases h.admissions with ⟨_, heq⟩ | ⟨_, _, _, heq, _⟩ | ⟨_, _, _, _, _, _, heq, _⟩
  · rw [heq]
    apply List.Subset.refl
  · rw [heq]
    apply List.subset_cons_self
  · rw [heq]
    apply List.Subset.refl

/-- Nothing is driven when the thread is started. -/
theorem initial_drives (clock : Int) :
  Drives (initial clock : State ρ ε)
  := by
  constructor
  · intro c h
    cases h
  · intro e n h
    cases h
  · intro e result drives h
    cases h
  · intro e drives h
    cases h
  · intro e h
    cases h
  · intro e h
    cases h
  · apply List.nodup_nil

/-- Every step keeps what is driven. -/
theorem Drives.step (hd : Drives s) (hs : Placed s)
    (h : Step timeout stoppedError withdrawnError s s') :
  Drives s'
  := by
  have hsubset := h.passed_subset
  constructor
  · intro c hc
    apply hsubset
    rcases h.checks with heq | ⟨e, n, hthread, heq⟩
    · rw [heq] at hc
      apply hd.passed c hc
    · rw [heq] at hc
      rcases List.mem_cons.mp hc with rfl | hc
      · apply hs.passed_of_serves <;> simp [hthread, Thread.serves]
      · apply hd.passed c hc
  · intro e n hthread
    rcases h.admitting hthread with ⟨hsame, heq⟩ | ⟨hclaimed, rfl, heq⟩ |
      ⟨m, hsame, rfl, hrequested, heq⟩
    · obtain ⟨hlt, _⟩ := hs.serves e (by rw [hsame]; rfl)
      apply (hd.admitting e n hsame).of_checks hlt h heq
    · obtain ⟨hlt, _⟩ := hs.serves e (by rw [hclaimed]; rfl)
      apply (hd.requested_zero (hs.claimed e hclaimed)).of_checks hlt h heq
    · obtain ⟨hlt, _⟩ := hs.serves e (by rw [hsame]; rfl)
      apply (hd.admitting e m hsame).check hlt h hrequested heq
  · intro e result drives hthread
    rcases h.admitted hthread with hsame | ⟨⟨n, hsame, hn⟩, _, heq⟩
    · obtain ⟨hlt, _⟩ := hs.serves e (by rw [hsame]; rfl)
      apply (hd.admitted e result drives hsame).step hlt h
      simp [hsame]
    · obtain ⟨hlt, _⟩ := hs.serves e (by rw [hsame]; rfl)
      obtain ⟨hlength, hall⟩ := hd.admitting e n hsame
      have hrequested : Requested s e (if drives then 2 else 1) := ⟨Nat.le_trans hn hlength, hall⟩
      apply hrequested.of_checks hlt h heq
  · intro e drives hthread
    rcases h.acknowledging hthread with hsame | ⟨result, hsame⟩
    · obtain ⟨hlt, _⟩ := hs.serves e (by rw [hsame]; rfl)
      apply (hd.acknowledged e drives hsame).step hlt h
      simp [hsame]
    · obtain ⟨hlt, _⟩ := hs.serves e (by rw [hsame]; rfl)
      apply (hd.admitted e result drives hsame).step hlt h
      simp [hsame]
  · intro e hdriven
    have hold : e ∈ s.passed ∧ Requested s e 2 ∧ ∀ n, s.thread ≠ .admitting e n := by
      have hkept : ∀ e ∈ s.driven, ∀ n, s.thread ≠ .admitting e n := by
        intro e he n hthread
        apply hd.fresh e _ he
        rw [hthread]
        rfl
      rcases h.driven_eq with heq | ⟨e', hthread, _, heq⟩
      · rw [heq] at hdriven
        obtain ⟨hpassed, hrequested⟩ := hd.driven e hdriven
        exact ⟨hpassed, hrequested, hkept e hdriven⟩
      · rw [heq] at hdriven
        rcases List.mem_cons.mp hdriven with rfl | hdriven
        · refine ⟨?_, hd.acknowledged e true hthread, by simp [hthread]⟩
          apply hs.passed_of_serves <;> simp [hthread, Thread.serves]
        · obtain ⟨hpassed, hrequested⟩ := hd.driven e hdriven
          exact ⟨hpassed, hrequested, hkept e hdriven⟩
    obtain ⟨hpassed, hrequested, hother⟩ := hold
    exact ⟨hsubset hpassed, hrequested.step (hs.passed e hpassed).1 h hother⟩
  · intro e hanswering hdriven
    have hfresh : e ∉ s.driven := by
      rcases h.answering hanswering with hsame | hclaimed
      · apply hd.fresh e hsame
      · intro hmem
        apply hs.claimed e hclaimed (hd.driven e hmem).1
    rcases h.driven_eq with heq | ⟨e', _, hthread, heq⟩
    · rw [heq] at hdriven
      apply hfresh hdriven
    · rw [hthread] at hanswering
      cases hanswering
  · rcases h.driven_eq with heq | ⟨e, hthread, _, heq⟩
    · rw [heq]
      apply hd.once
    · rw [heq, List.nodup_cons]
      refine ⟨hd.fresh e ?_, hd.once⟩
      rw [hthread]
      rfl

/-! ### How a call ends -/

/-- The envelope of a call that has timed out is not queued. -/
structure Waits (s : State ρ ε) : Prop where
  fresh : ∀ i e, (s.callers i).envelope = some e → e < s.count
  timedOut : ∀ i e, s.callers i = .timedOut e → (s.envelopes e).state ≠ .queued

/-- No call has begun when the thread is started. -/
theorem initial_waits (clock : Int) :
  Waits (initial clock : State ρ ε)
  := by
  constructor
  · intro i e h
    cases h
  · intro i e h
    cases h

/-- Every step keeps how the calls end. -/
theorem Waits.step (hw : Waits s) (h : Step timeout stoppedError withdrawnError s s') :
  Waits s'
  := by
  constructor
  · intro i e henvelope
    rcases h.envelope henvelope with hsame | ⟨rfl, hcount⟩
    · apply Nat.lt_of_lt_of_le (hw.fresh i e hsame) h.count_le
    · omega
  · intro i e hcaller
    rcases h.timedOut hcaller with hsame | hstate
    · apply h.not_queued (hw.fresh i e (by rw [hsame]; rfl)) (hw.timedOut i e hsame)
    · exact hstate

/-! ### How the coordinator ends -/

/-- The thread is on its way to its end. -/
def Thread.Ending : Thread ρ ε → Prop
  | .rejecting _ => True
  | .closing => True
  | _ => False

/-- The coordinator ends when it is stopped or has failed, and then accepts no command. -/
structure Ends (s : State ρ ε) : Prop where
  ending : s.thread.Ending → s.stopping = true ∨ s.fatal = true
  stop : .stop ∈ s.mailbox → s.stopping = true ∨ s.thread = .exited
  closed : s.thread = .closing ∨ s.thread = .exited ∧ s.startupFailed = false →
    ∀ e, .envelope e ∉ s.mailbox
  stopper : s.stopper ≠ none → s.stopping = true
  joined : s.joined = true → s.thread = .exited
  stopped : s.stopped = true → s.stopping = true ∨ s.joined = true

/-- A step that leaves the coordinator, and puts nothing into the mailbox. -/
theorem Ends.frame (he : Ends s) (hthread : s'.thread = s.thread)
    (hstopping : s'.stopping = s.stopping) (hfatal : s'.fatal = s.fatal)
    (hmailbox : s'.mailbox ⊆ s.mailbox) (hstopper : s'.stopper ≠ none → s.stopper ≠ none)
    (hjoined : s'.joined = s.joined) (hstopped : s'.stopped = s.stopped)
    (hstartup : s'.startupFailed = s.startupFailed) :
  Ends s'
  := by
  constructor
  · rw [hthread, hstopping, hfatal]
    apply he.ending
  · intro h
    rw [hthread, hstopping]
    apply he.stop (hmailbox h)
  · intro h e hmem
    rw [hthread, hstartup] at h
    apply he.closed h e (hmailbox hmem)
  · intro h
    rw [hstopping]
    apply he.stopper (hstopper h)
  · rw [hthread, hjoined]
    apply he.joined
  · rw [hstopping, hjoined, hstopped]
    apply he.stopped

/-- A change of an envelope. -/
theorem Ends.update (he : Ends s) (e : Nat) (envelope : Envelope ρ ε) :
  Ends (s.update e envelope)
  := by
  exact he.frame rfl rfl rfl (List.Subset.refl _) id rfl rfl rfl

/-- The thread goes on, and not to its end. -/
theorem Ends.goto (he : Ends s) {t : Thread ρ ε} (halive : s.thread ≠ .exited) (hlive : ¬ t.Ending)
    (ht : t ≠ .exited) :
  Ends (s.goto t)
  := by
  constructor
  · intro h
    apply absurd h hlive
  · intro h
    left
    apply (he.stop h).resolve_right halive
  · rintro (h | ⟨h, _⟩)
    · apply absurd _ hlive
      rw [show t = .closing from h]
      trivial
    · apply absurd h ht
  · apply he.stopper
  · intro h
    apply absurd (he.joined h) halive
  · apply he.stopped

/-- The thread goes to its end, and not yet to the shutdown. -/
theorem Ends.rejecting (he : Ends s) (halive : s.thread ≠ .exited)
    (h : s.stopping = true ∨ s.fatal = true) (e : Option Nat) :
  Ends (s.goto (.rejecting e))
  := by
  constructor
  · intro _
    exact h
  · intro h
    left
    apply (he.stop h).resolve_right halive
  · rintro (h | ⟨h, _⟩)
    · cases h
    · cases h
  · apply he.stopper
  · intro h
    apply absurd (he.joined h) halive
  · apply he.stopped

/-- The thread exits. -/
theorem Ends.exit (he : Ends s) (h : s.thread = .closing) :
  Ends (s.goto .exited)
  := by
  constructor
  · intro h
    cases h
  · intro _
    right
    rfl
  · intro _
    apply he.closed (.inl h)
  · apply he.stopper
  · intro _
    rfl
  · apply he.stopped

/-- The coordinator does not end when the thread is started. -/
theorem initial_ends (clock : Int) :
  Ends (initial clock : State ρ ε)
  := by
  constructor
  · intro h
    cases h
  · intro h
    cases h
  · rintro (h | ⟨h, _⟩) <;> cases h
  · intro h
    apply absurd rfl h
  · intro h
    cases h
  · intro h
    cases h

/-- Every step keeps how the coordinator ends. -/
theorem Ends.step (he : Ends s) (h : Step timeout stoppedError withdrawnError s s') :
  Ends s'
  := by
  have hsubset : ∀ {item : Item} {mailbox : List Item}, s.mailbox = item :: mailbox →
      mailbox ⊆ s.mailbox := by
    intro item mailbox h
    rw [h]
    apply List.subset_cons_self
  cases h with
  | submit i observed deadline h hlock haccepting =>
      obtain ⟨hfatal, hnot, halive, hstopping⟩ := haccepting
      constructor
      · apply he.ending
      · simpa using he.stop
      · rintro (h | ⟨h, _⟩)
        · have hending := he.ending (by rw [h]; trivial)
          simp [hfatal, hstopping] at hending
        · exact absurd h halive
      · apply he.stopper
      · apply he.joined
      · apply he.stopped
  | stop hlock hstopping hjoined =>
      constructor
      · intro _
        left
        rfl
      · intro _
        left
        rfl
      · apply he.closed
      · intro _
        rfl
      · apply he.joined
      · intro _
        left
        rfl
  | stopGet e mailbox h hmailbox =>
      exact he.frame rfl rfl rfl (hsubset hmailbox) (by simp [h]) rfl rfl rfl
  | stopSkip mailbox h hmailbox =>
      exact he.frame rfl rfl rfl (hsubset hmailbox) id rfl rfl rfl
  | stopReject e h =>
      exact he.frame rfl rfl rfl (List.Subset.refl _) (by simp [h]) rfl rfl rfl
  | stopPut h hmailbox halive =>
      have hstopping : s.stopping = true := he.stopper (by simp [h])
      constructor
      · apply he.ending
      · intro _
        left
        exact hstopping
      · intro _ e hmem
        simp at hmem
      · intro hnone
        exact absurd rfl hnone
      · apply he.joined
      · apply he.stopped
  | stopDead h hmailbox hdead =>
      exact he.frame rfl rfl rfl (List.Subset.refl _) (fun h => absurd rfl h) rfl rfl rfl
  | join hlock hstopping hexited =>
      constructor
      · intro h
        rw [show s.thread = .exited from hexited] at h
        cases h
      · intro _
        right
        exact hexited
      · apply he.closed
      · intro h
        exact absurd hlock h
      · intro _
        exact hexited
      · intro _
        right
        rfl
  | startFails h =>
      have halive : s.thread ≠ .exited := by simp [h]
      constructor
      · intro h
        cases h
      · intro _
        right
        rfl
      · rintro (h | ⟨_, h⟩)
        · cases h
        · cases h
      · apply he.stopper
      · intro _
        rfl
      · apply he.stopped
  | start h => apply he.goto <;> simp [h, Thread.Ending]
  | get e mailbox h hmailbox =>
      have hreceived : Ends (s.goto (.received e)) := by
        apply he.goto <;> simp [h, Thread.Ending]
      exact hreceived.frame rfl rfl rfl (hsubset hmailbox) id rfl rfl rfl
  | getStop mailbox h hmailbox =>
      have hstopping : s.stopping = true := by
        apply (he.stop (by simp [hmailbox])).resolve_right
        simp [h]
      have hrejecting : Ends (s.goto (.rejecting none)) :=
        he.rejecting (by simp [h]) (.inl hstopping) none
      exact hrejecting.frame rfl rfl rfl (hsubset hmailbox) id rfl rfl rfl
  | claimStopped e h hlock hstopping =>
      have hupdated := he.update e ((s.envelopes e).rejectQueued stoppedError).2
      apply hupdated.goto <;> simp [State.update, h, Thread.Ending]
  | claim e h hlock hstopping =>
      have hupdated := he.update e (s.envelopes e).beginAdmission.2
      apply hupdated.goto
      · simp [State.update, h]
      · split <;> simp [Thread.Ending]
      · split <;> simp
  | unclaimed h hlock =>
      have halive : s.thread ≠ .exited := by rcases h with h | h <;> simp [h]
      split
      · next hstopping => exact he.rejecting halive (.inl hstopping) none
      · apply he.goto halive <;> simp [Thread.Ending]
  | pass e h =>
      have hadmitting : Ends (s.goto (.admitting e 0)) := by
        apply he.goto <;> simp [h, Thread.Ending]
      exact hadmitting.frame rfl rfl rfl (List.Subset.refl _) id rfl rfl rfl
  | check e n h =>
      have hchecked : Ends (s.goto (if (s.envelopes e).stillRequested s.clock then
          .admitting e (n + 1) else .raising e withdrawnError false)) := by
        apply he.goto
        · simp [h]
        · split <;> simp [Thread.Ending]
        · split <;> simp
      exact hchecked.frame rfl rfl rfl (List.Subset.refl _) id rfl rfl rfl
  | raise e n error fatal h => apply he.goto <;> simp [h, Thread.Ending]
  | fail e error fatal h =>
      have hupdated := he.update e ((s.envelopes e).failed error)
      apply hupdated.goto
      · simp [State.update, h]
      · split <;> simp [Thread.Ending]
      · split <;> simp
  | commit e n result drives h hchecks =>
      have hadmitted : Ends (s.goto (.admitted e result drives)) := by
        apply he.goto <;> simp [h, Thread.Ending]
      exact hadmitted.frame rfl rfl rfl (List.Subset.refl _) id rfl rfl rfl
  | acknowledge e result drives h =>
      have hupdated := he.update e ((s.envelopes e).commit result).2
      apply hupdated.goto <;> simp [State.update, h, Thread.Ending]
  | publish e h =>
      have hupdated := he.update e { s.envelopes e with projectionReady := true }
      apply hupdated.goto <;> simp [State.update, h, Thread.Ending]
  | drive e h =>
      have hupdated := he.update e { s.envelopes e with projectionReady := true }
      have hdriving : Ends ((s.update e { s.envelopes e with projectionReady := true }).goto
          (.driving e)) := by
        apply hupdated.goto <;> simp [State.update, h, Thread.Ending]
      exact hdriving.frame rfl rfl rfl (List.Subset.refl _) id rfl rfl rfl
  | publishFails e drives error h =>
      have hupdated := he.update e { s.envelopes e with projectionReady := true }
      apply hupdated.goto <;> simp [State.update, h, Thread.Ending]
  | driven e h => apply he.goto <;> simp [h, Thread.Ending]
  | driveFails e error h => apply he.goto <;> simp [h, Thread.Ending]
  | failed e error h =>
      have hupdated := he.update e ((s.envelopes e).failed error)
      apply hupdated.goto <;> simp [State.update, h, Thread.Ending]
  | mark h hlock =>
      have hfatal : Ends { s with fatal := true } := by
        constructor
        · intro _
          right
          rfl
        · apply he.stop
        · apply he.closed
        · apply he.stopper
        · apply he.joined
        · apply he.stopped
      exact hfatal.rejecting (by simp [h]) (.inr rfl) none
  | drainGet e mailbox h hmailbox =>
      have hrejecting : Ends (s.goto (.rejecting (some e))) :=
        he.rejecting (by simp [h]) (he.ending (by rw [h]; trivial)) (some e)
      exact hrejecting.frame rfl rfl rfl (hsubset hmailbox) id rfl rfl rfl
  | drainSkip mailbox h hmailbox =>
      exact he.frame rfl rfl rfl (hsubset hmailbox) id rfl rfl rfl
  | drainReject e h =>
      have hupdated := he.update e ((s.envelopes e).rejectQueued stoppedError).2
      apply hupdated.rejecting
      · simp [State.update, h]
      · apply he.ending
        rw [h]
        trivial
  | drained h hmailbox =>
      constructor
      · intro _
        apply he.ending
        rw [h]
        trivial
      · intro hmem
        rw [show (s.goto .closing).mailbox = [] from hmailbox] at hmem
        cases hmem
      · intro _ e hmem
        rw [show (s.goto .closing).mailbox = [] from hmailbox] at hmem
        cases hmem
      · apply he.stopper
      · intro hj
        have := he.joined hj
        simp [h] at this
      · apply he.stopped
  | exit h => exact he.exit h
  | shutdownFails h hlock =>
      have hexited := he.exit h
      constructor
      · intro h
        cases h
      · apply hexited.stop
      · apply hexited.closed
      · apply hexited.stopper
      · apply hexited.joined
      · apply hexited.stopped
  | _ => exact he.frame rfl rfl rfl (List.Subset.refl _) id rfl rfl rfl

/-! ### Runs -/

/-- Nothing has happened when the thread is started. -/
theorem initial_placed (clock : Int) :
  Placed (initial clock : State ρ ε)
  := by
  constructor
  · rintro e (h | h | h) <;> cases h
  · intro e h
    cases h
  · intro e h
    cases h
  · intro e h
    cases h
  · apply List.nodup_nil
  · intro e h
    cases h
  · intro e h
    cases h

/-- What holds in every state that a run reaches. -/
structure Agreement (s : State ρ ε) : Prop where
  placed : Placed s
  answers : Answers s
  drives : Drives s
  waits : Waits s
  ends : Ends s

/-- Every run keeps the agreement. -/
theorem Reachable.agreement (h : Reachable timeout stoppedError withdrawnError s) :
  Agreement s
  := by
  obtain ⟨clock, hrun⟩ := h
  induction hrun with
  | refl =>
      exact ⟨initial_placed clock, initial_answers clock, initial_drives clock,
        initial_waits clock, initial_ends clock⟩
  | tail _ hstep ih =>
      exact ⟨ih.placed.step hstep, ih.answers.step ih.placed hstep,
        ih.drives.step ih.placed hstep, ih.waits.step hstep, ih.ends.step hstep⟩

/-- An envelope that is not on its way to the chain was rejected, or was passed to it once. -/
theorem Placed.settled (hs : Placed s) {e : Nat} (he : e < s.count) :
  (s.envelopes e).state = .withdrawn ∧ e ∉ s.passed ∨ s.passed.count e = 1 ∨
    (Pending s e ∨ s.thread = .claimed e) ∧ e ∉ s.passed
  := by
  have hnot : ¬ Begun (s.envelopes e) → e ∉ s.passed := by
    intro hb hp
    apply hb (hs.passed e hp).2
  cases hstate : (s.envelopes e).state with
  | queued =>
      right
      right
      exact ⟨.inl (hs.queued e he hstate), hnot (by simp [Begun, hstate])⟩
  | withdrawn => exact .inl ⟨rfl, hnot (by simp [Begun, hstate])⟩
  | admitting =>
      right
      rcases hs.begun e he (.inl hstate) with hpassed | hclaimed
      · left
        apply List.count_eq_one_of_mem hs.once hpassed
      · right
        exact ⟨.inr hclaimed, hs.claimed e hclaimed⟩
  | committed =>
      right
      rcases hs.begun e he (.inr hstate) with hpassed | hclaimed
      · left
        apply List.count_eq_one_of_mem hs.once hpassed
      · right
        exact ⟨.inr hclaimed, hs.claimed e hclaimed⟩

/-- When the thread has exited, an envelope that is still queued is about to be rejected. -/
theorem Agreement.exited (ha : Agreement s) (hexited : s.thread = .exited)
    (hstarted : s.startupFailed = false) {e : Nat} (he : e < s.count)
    (hqueued : (s.envelopes e).state = .queued) :
  s.stopper = some (some e)
  := by
  rcases ha.placed.queued e he hqueued with hmailbox | hholds | hstopper
  · apply absurd hmailbox (ha.ends.closed (.inr ⟨hexited, hstarted⟩) e)
  · rw [hexited] at hholds
    cases hholds
  · exact hstopper

/-- A call of `submit` times out while its command is being admitted, and the command is driven
afterwards. -/
theorem exists_driven_after_timeout :
  ∃ s s' : State Nat String, Reachable 5 "stopped" "withdrawn" s ∧
    Relation.ReflTransGen (Step 5 "stopped" "withdrawn") s s' ∧
    s.callers 0 = .timedOut 0 ∧ s.driven = [] ∧ s'.driven = [0]
  := by
  have haccepting : ((initial 0 : State Nat String).caller 0 (.preparing false 5)).Accepting :=
    ⟨rfl, rfl, by simp [State.caller, initial], rfl⟩
  have hcalled : Relation.ReflTransGen (Step 5 "stopped" "withdrawn")
      (initial 0 : State Nat String) _ := Relation.ReflTransGen.refl.tail (.call 0 false rfl)
  have hsubmitted := hcalled.tail (.submit 0 false 5 rfl rfl haccepting)
  have hadmitting := (((hsubmitted.tail (.start rfl)).tail (.get 0 [] rfl rfl)).tail
    (.claim 0 rfl rfl rfl)).tail (.pass 0 rfl)
  have hrequested := (hadmitting.tail (.check 0 0 rfl)).tail (.check 0 1 rfl)
  have htimedOut := ((hrequested.tail (.tick 5)).tail
    (.expire 0 false 0 rfl (by decide))).tail (.withdraw 0 0 rfl)
  refine ⟨_, _, ⟨0, htimedOut⟩, ((Relation.ReflTransGen.refl.tail
    (.commit 0 2 7 true rfl (by decide))).tail (.acknowledge 0 7 true rfl)).tail (.drive 0 rfl),
    rfl, rfl, rfl⟩

end MachineCoordinator

end DrawingMachine
