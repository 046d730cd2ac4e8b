import DrawingMachine.Service.MachineAgreement

/-!
# The replies of the machine coordinator, and its end

Every command that was submitted is replied to: its admission is acknowledged or fails, it is
rejected, or its submitter has given up. Whatever has happened, the coordinator can be stopped
without the help of its submitters: no state that a run reaches is one in which it hangs.
-/

namespace DrawingMachine

namespace MachineCoordinator

variable {ρ ε : Type} {timeout : Int} {stoppedError withdrawnError : ε} {s s' : State ρ ε}

/-! ### Replies -/

/-- The submitter need not wait for the acknowledgement, nor for the projection. -/
def Replied (envelope : Envelope ρ ε) : Prop :=
  envelope.acknowledged = true ∧ envelope.projectionReady = true

/-- The envelope whose admission is neither acknowledged nor has failed. -/
def Thread.undecided : Thread ρ ε → Option Nat
  | .claimed e => some e
  | .admitting e _ => some e
  | .raising e _ _ => some e
  | .admitted e _ _ => some e
  | _ => none

/-- The envelope that is served after its reply. -/
def Thread.replied : Thread ρ ε → Option Nat
  | .driving e => some e
  | .failing e _ => some e
  | _ => none

/-- An envelope that is no longer queued is served, or replied to, or its submitter has given
up. -/
structure Attended (s : State ρ ε) (e : Nat) : Prop where
  undecided : s.thread.undecided = some e → (s.envelopes e).state = .admitting
  acknowledged : ∀ drives, s.thread = .acknowledged e drives → (s.envelopes e).acknowledged = true
  replied : s.thread.replied = some e → Replied (s.envelopes e)
  settled : (s.envelopes e).state ≠ .queued →
    s.thread.serves = some e ∨ Replied (s.envelopes e) ∨ ∃ i, s.callers i = .timedOut e

/-- An envelope whose admission is not decided is served. -/
theorem Thread.serves_of_undecided {thread : Thread ρ ε} {e : Nat}
    (h : thread.undecided = some e) :
  thread.serves = some e
  := by
  cases thread <;> first | exact h | cases h

/-- An envelope that is served after its reply is served. -/
theorem Thread.serves_of_replied {thread : Thread ρ ε} {e : Nat} (h : thread.replied = some e) :
  thread.serves = some e
  := by
  cases thread <;> first | exact h | cases h

/-- An envelope that is not served. -/
theorem Attended.of_not_served {e : Nat} (h : s.thread.serves ≠ some e)
    (hsettled : (s.envelopes e).state ≠ .queued →
      Replied (s.envelopes e) ∨ ∃ i, s.callers i = .timedOut e) :
  Attended s e
  := by
  constructor
  · intro hundecided
    apply absurd (Thread.serves_of_undecided hundecided) h
  · intro drives hthread
    rw [hthread] at h
    apply absurd rfl h
  · intro hreplied
    apply absurd (Thread.serves_of_replied hreplied) h
  · intro hstate
    right
    apply hsettled hstate

/-- An envelope whose admission is not decided. -/
theorem Attended.of_undecided {e : Nat} (h : s.thread.undecided = some e)
    (hstate : (s.envelopes e).state = .admitting) :
  Attended s e
  := by
  constructor
  · intro _
    exact hstate
  · intro drives hthread
    rw [hthread] at h
    cases h
  · intro hreplied
    cases hthread : s.thread <;> rw [hthread] at h hreplied <;>
      first | (cases hreplied; done) | cases h
  · intro _
    left
    apply Thread.serves_of_undecided h

/-- An envelope whose admission is acknowledged, and not published. -/
theorem Attended.of_acknowledged {e : Nat} {drives : Bool}
    (h : s.thread = .acknowledged e drives) (hacknowledged : (s.envelopes e).acknowledged = true) :
  Attended s e
  := by
  constructor
  · intro hundecided
    rw [h] at hundecided
    cases hundecided
  · intro _ _
    exact hacknowledged
  · intro hreplied
    rw [h] at hreplied
    cases hreplied
  · intro _
    left
    rw [h]
    rfl

/-- An envelope that is replied to. -/
theorem Attended.of_replied {e : Nat} (h : s.thread.undecided = none)
    (hreplied : Replied (s.envelopes e)) :
  Attended s e
  := by
  constructor
  · intro hundecided
    rw [h] at hundecided
    cases hundecided
  · intro _ _
    exact hreplied.1
  · intro _
    exact hreplied
  · intro _
    right
    left
    exact hreplied

/-- A step that leaves the envelope, and does not serve it. -/
theorem Attended.frame {e : Nat} (ha : Attended s e) (henvelope : s'.envelopes e = s.envelopes e)
    (hthread : s'.thread = s.thread ∨ s.thread.serves ≠ some e ∧ s'.thread.serves ≠ some e)
    (hcallers : ∀ i, s.callers i = .timedOut e → s'.callers i = .timedOut e) :
  Attended s' e
  := by
  rcases hthread with hthread | ⟨hnot, hnot'⟩
  · constructor
    · rw [hthread, henvelope]
      apply ha.undecided
    · rw [hthread, henvelope]
      apply ha.acknowledged
    · rw [hthread, henvelope]
      apply ha.replied
    · rw [hthread, henvelope]
      intro hstate
      rcases ha.settled hstate with h | h | ⟨i, h⟩
      · left
        exact h
      · right
        left
        exact h
      · right
        right
        use i
        apply hcallers i h
  · apply Attended.of_not_served hnot'
    rw [henvelope]
    intro hstate
    rcases ha.settled hstate with h | h | ⟨i, h⟩
    · apply absurd h hnot
    · left
      exact h
    · right
      use i
      apply hcallers i h

/-- A call goes on that has not timed out. -/
theorem caller_timedOut {i : Nat} {c : Caller ρ ε} (h : ∀ e, s.callers i ≠ .timedOut e)
    (i' e : Nat) (htimedOut : s.callers i' = .timedOut e) :
  Function.update s.callers i c i' = .timedOut e
  := by
  by_cases heq : i' = i
  · subst heq
    apply absurd htimedOut (h e)
  · rw [Function.update_of_ne heq]
    exact htimedOut

/-- A call goes on that has not timed out, and leaves the envelopes. -/
theorem Attended.caller {e : Nat} (ha : Attended s e) {i : Nat} {c : Caller ρ ε}
    (h : ∀ e, s.callers i ≠ .timedOut e) :
  Attended (s.caller i c) e
  := by
  refine ha.frame rfl (.inl rfl) ?_
  intro i' htimedOut
  apply caller_timedOut h i' e htimedOut

/-- An envelope that is rejected is replied to. -/
theorem Replied.rejectQueued {envelope : Envelope ρ ε} (error : ε)
    (h : envelope.state ≠ .queued → Replied envelope) :
  Replied (envelope.rejectQueued error).2
  := by
  unfold Envelope.rejectQueued
  split
  · next hstate => apply h hstate
  · exact ⟨rfl, rfl⟩

/-- An envelope whose admission failed is replied to. -/
theorem Replied.failed {envelope : Envelope ρ ε} (error : ε)
    (h : envelope.state = .withdrawn ∨ envelope.state = .committed → Replied envelope) :
  Replied (envelope.failed error)
  := by
  unfold Envelope.failed
  split
  · next hstate => apply h hstate
  · exact ⟨rfl, rfl⟩

/-- A rejection of an envelope, which may be another one. -/
theorem Attended.rejected {e : Nat} (ha : Attended s e) (e' : Nat) (error : ε)
    (henvelopes : s'.envelopes = (s.update e' ((s.envelopes e').rejectQueued error).2).envelopes)
    (hthread : s'.thread = s.thread ∨ s.thread.serves = none ∧ s'.thread.serves = none)
    (hcallers : s'.callers = s.callers) :
  Attended s' e
  := by
  have hframe : (s'.envelopes e = s.envelopes e) → Attended s' e := by
    intro henvelope
    apply ha.frame henvelope
    · rcases hthread with h | ⟨h, h'⟩
      · left
        exact h
      · right
        rw [h, h']
        constructor <;> rintro ⟨⟩
    · rw [hcallers]
      intro i h
      exact h
  by_cases he : e = e'
  · subst he
    by_cases hstate : (s.envelopes e).state = .queued
    · have hreplied : Replied (s'.envelopes e) := by
        rw [henvelopes, envelopes_update_self]
        apply Replied.rejectQueued error
        intro h
        apply absurd hstate h
      constructor
      · intro h
        rcases hthread with hthread | ⟨-, hthread⟩
        · rw [hthread] at h
          have := ha.undecided h
          rw [hstate] at this
          cases this
        · have := Thread.serves_of_undecided h
          rw [hthread] at this
          cases this
      · intro _ _
        exact hreplied.1
      · intro _
        exact hreplied
      · intro _
        right
        left
        exact hreplied
    · apply hframe
      rw [henvelopes, envelopes_update_self, Envelope.rejectQueued, if_pos hstate]
  · apply hframe
    rw [henvelopes, envelopes_update_of_ne s _ he]

/-- The thread goes on with an envelope, which may be another one. -/
theorem Attended.served {e : Nat} (ha : Attended s e) (e' : Nat) (hserves : s.thread.serves = some e')
    (hserves' : s'.thread.serves = some e' ∨ s'.thread.serves = none)
    (hother : ∀ e, e ≠ e' → s'.envelopes e = s.envelopes e) (hcallers : s'.callers = s.callers)
    (h : e = e' → Attended s' e) :
  Attended s' e
  := by
  by_cases he : e = e'
  · apply h he
  · apply ha.frame (hother e he)
    · right
      rw [hserves]
      constructor
      · rintro ⟨⟩
        apply he rfl
      · rcases hserves' with h' | h'
        · rw [h']
          rintro ⟨⟩
          apply he rfl
        · rw [h']
          rintro ⟨⟩
    · rw [hcallers]
      intro i h
      exact h

/-- Every step attends to the envelopes. -/
theorem Attended.step {e : Nat} (ha : Attended s e) (he : e < s.count) (hs : Placed s)
    (h : Step timeout stoppedError withdrawnError s s') :
  Attended s' e
  := by
  cases h with
  | call i observed h =>
      apply ha.caller
      simp [h]
  | submit i observed deadline h hlock haccepting =>
      refine ha.frame ?_ (.inl rfl) ?_
      · apply Function.update_of_ne
        omega
      · intro i' htimedOut
        apply caller_timedOut _ i' e htimedOut
        simp [h]
  | refuse i observed deadline h hlock haccepting =>
      apply ha.caller
      simp [h]
  | acknowledged i observed e' h hacknowledged =>
      apply ha.caller
      simp [h]
  | expire i observed e' h hdeadline =>
      apply ha.caller
      simp [h]
  | answer i observed e' h =>
      apply ha.caller
      simp [h]
  | project i e' result h hready =>
      apply ha.caller
      simp [h]
  | withdraw i e' h =>
      have hcallers : ∀ i', s.callers i' = .timedOut e →
          ((s.update e' (s.envelopes e').withdrawQueued.2).caller i (.timedOut e')).callers i' =
            .timedOut e := fun i' => caller_timedOut (by simp [h]) i' e
      by_cases heq : e = e'
      · subst heq
        by_cases hstate : (s.envelopes e).state = .queued
        · have hnot : s.thread.serves ≠ some e := by
            intro hserves
            obtain ⟨_, hbegun⟩ := hs.serves e hserves
            simp [Begun, hstate] at hbegun
          refine Attended.of_not_served hnot ?_
          intro _
          right
          use i
          apply Function.update_self
        · refine ha.frame ?_ (.inl rfl) hcallers
          simp [State.caller, State.update, Envelope.withdrawQueued, hstate]
      · refine ha.frame ?_ (.inl rfl) hcallers
        apply envelopes_update_of_ne s _ heq
  | stopReject e' h => exact ha.rejected e' stoppedError rfl (.inl rfl) rfl
  | claimStopped e' h hlock hstopping =>
      refine ha.rejected e' stoppedError rfl (.inr ⟨?_, rfl⟩) rfl
      rw [h]
      rfl
  | drainReject e' h =>
      refine ha.rejected e' stoppedError rfl (.inr ⟨?_, rfl⟩) rfl
      rw [h]
      rfl
  | claim e' h hlock hstopping =>
      have hnot : s.thread.serves = none := by rw [h]; rfl
      by_cases hstate : (s.envelopes e').state = .queued
      · by_cases heq : e = e'
        · subst heq
          have hbegin : (s.envelopes e).beginAdmission =
              (true, { s.envelopes e with state := .admitting }) := by
            simp [Envelope.beginAdmission, hstate]
          rw [hbegin]
          apply Attended.of_undecided
          · rfl
          · simp [State.goto, State.update]
        · refine ha.frame (envelopes_update_of_ne s _ heq) (.inr ⟨?_, ?_⟩) (fun i h => h)
          · rw [hnot]
            rintro ⟨⟩
          · simp only [State.goto]
            split
            · rintro ⟨⟩
              apply heq rfl
            · rintro ⟨⟩
      · have hbegin : (s.envelopes e').beginAdmission = (false, s.envelopes e') := by
          simp [Envelope.beginAdmission, hstate]
        rw [hbegin]
        refine ha.frame ?_ (.inr ⟨?_, by rintro ⟨⟩⟩) (fun i h => h)
        · simp [State.goto, State.update]
        · rw [hnot]
          rintro ⟨⟩
  | unclaimed h hlock =>
      refine ha.frame rfl (.inr ⟨?_, ?_⟩) (fun i h => h)
      · rcases h with h | h <;>
        · rw [h]
          rintro ⟨⟩
      · simp only [State.goto]
        split <;> rintro ⟨⟩
  | pass e' h =>
      refine ha.served e' (by rw [h]; rfl) (.inl rfl) (fun e he => rfl) rfl ?_
      rintro rfl
      have hstate := ha.undecided (by rw [h]; rfl)
      exact Attended.of_undecided rfl hstate
  | check e' n h =>
      have hserves : (s.goto (if (s.envelopes e').stillRequested s.clock then
          .admitting e' (n + 1) else .raising e' withdrawnError false)).thread.serves =
            some e' := by
        simp only [State.goto]
        split <;> rfl
      refine ha.served e' (by rw [h]; rfl) (.inl hserves) (fun e he => rfl) rfl ?_
      rintro rfl
      have hstate := ha.undecided (by rw [h]; rfl)
      refine Attended.of_undecided ?_ hstate
      simp only [State.goto]
      split <;> rfl
  | raise e' n error fatal h =>
      refine ha.served e' (by rw [h]; rfl) (.inl rfl) (fun e he => rfl) rfl ?_
      rintro rfl
      have hstate := ha.undecided (by rw [h]; rfl)
      exact Attended.of_undecided rfl hstate
  | commit e' n result drives h hchecks =>
      refine ha.served e' (by rw [h]; rfl) (.inl rfl) (fun e he => rfl) rfl ?_
      rintro rfl
      have hstate := ha.undecided (by rw [h]; rfl)
      exact Attended.of_undecided rfl hstate
  | fail e' error fatal h =>
      refine ha.served e' (by rw [h]; rfl) ?_
        (fun e he => envelopes_update_of_ne s _ he) rfl ?_
      · simp only [State.goto]
        split
        · left
          rfl
        · right
          rfl
      · rintro rfl
        have hstate := ha.undecided (by rw [h]; rfl)
        have hreplied : Replied ((s.envelopes e).failed error) := by
          apply Replied.failed error
          simp [hstate]
        apply Attended.of_replied
        · simp only [State.goto]
          split <;> rfl
        · simpa [State.goto, State.update] using hreplied
  | acknowledge e' result drives h =>
      refine ha.served e' (by rw [h]; rfl) (.inl rfl)
        (fun e he => envelopes_update_of_ne s _ he) rfl ?_
      rintro rfl
      have hstate := ha.undecided (by rw [h]; rfl)
      refine Attended.of_acknowledged rfl ?_
      simp [State.goto, State.update, Envelope.commit, hstate]
  | publish e' h =>
      refine ha.served e' (by rw [h]; rfl) (.inr rfl)
        (fun e he => envelopes_update_of_ne s _ he) rfl ?_
      rintro rfl
      have hreplied : Replied { s.envelopes e with projectionReady := true } :=
        ⟨ha.acknowledged _ h, rfl⟩
      refine Attended.of_replied rfl ?_
      simpa [State.goto, State.update] using hreplied
  | drive e' h =>
      refine ha.served e' (by rw [h]; rfl) (.inl rfl)
        (fun e he => envelopes_update_of_ne s _ he) rfl ?_
      rintro rfl
      have hreplied : Replied { s.envelopes e with projectionReady := true } :=
        ⟨ha.acknowledged _ h, rfl⟩
      refine Attended.of_replied rfl ?_
      simpa [State.goto, State.update] using hreplied
  | publishFails e' drives error h =>
      refine ha.served e' (by rw [h]; rfl) (.inl rfl)
        (fun e he => envelopes_update_of_ne s _ he) rfl ?_
      rintro rfl
      have hreplied : Replied { s.envelopes e with projectionReady := true } :=
        ⟨ha.acknowledged _ h, rfl⟩
      refine Attended.of_replied rfl ?_
      simpa [State.goto, State.update] using hreplied
  | driven e' h =>
      refine ha.served e' (by rw [h]; rfl) (.inr rfl) (fun e he => rfl) rfl ?_
      rintro rfl
      have hreplied := ha.replied (by rw [h]; rfl)
      exact Attended.of_replied rfl hreplied
  | driveFails e' error h =>
      refine ha.served e' (by rw [h]; rfl) (.inl rfl) (fun e he => rfl) rfl ?_
      rintro rfl
      have hreplied := ha.replied (by rw [h]; rfl)
      exact Attended.of_replied rfl hreplied
  | failed e' error h =>
      refine ha.served e' (by rw [h]; rfl) (.inr rfl)
        (fun e he => envelopes_update_of_ne s _ he) rfl ?_
      rintro rfl
      have hreplied : Replied ((s.envelopes e).failed error) := by
        apply Replied.failed error
        intro _
        apply ha.replied
        rw [h]
        rfl
      refine Attended.of_replied rfl ?_
      simpa [State.goto, State.update] using hreplied
  | _ =>
      refine ha.frame rfl ?_ (fun i h => h)
      first
      | exact .inl rfl
      | refine .inr ⟨?_, by rintro ⟨⟩⟩
        simp [*, Thread.serves]

/-- Every run attends to the envelopes. -/
theorem Reachable.attended (h : Reachable timeout stoppedError withdrawnError s) :
  ∀ e < s.count, Attended s e
  := by
  obtain ⟨clock, hrun⟩ := h
  induction hrun with
  | refl => nofun
  | @tail s s' hrun hstep ih =>
      have hs := Reachable.agreement ⟨clock, hrun⟩
      intro e he
      by_cases hlt : e < s.count
      · apply (ih e hlt).step hlt hs.placed hstep
      · have hqueued : (s'.envelopes e).state = .queued := by
          cases hstep with
          | submit i observed deadline h hlock haccepting =>
              simp only at he
              obtain rfl : e = s.count := by omega
              simp
          | _ => exact absurd he hlt
        have hs' := Reachable.agreement ⟨clock, hrun.tail hstep⟩
        apply Attended.of_not_served
        · intro hserves
          obtain ⟨_, hbegun⟩ := hs'.placed.serves e hserves
          simp [Begun, hqueued] at hbegun
        · intro hstate
          apply absurd hqueued hstate

/-- When the thread has exited and `stop` does not hold the lock, every command is replied to,
or its submitter has given up. -/
theorem Reachable.replied (h : Reachable timeout stoppedError withdrawnError s)
    (hexited : s.thread = .exited) (hlock : s.Unlocked) (hmailbox : ∀ e, .envelope e ∉ s.mailbox) :
  ∀ e < s.count, Replied (s.envelopes e) ∨ ∃ i, s.callers i = .timedOut e
  := by
  intro e he
  have hnot : (s.envelopes e).state ≠ .queued := by
    intro hqueued
    rcases h.agreement.placed.queued e he hqueued with hpending | hpending | hpending
    · apply hmailbox e hpending
    · rw [hexited] at hpending
      cases hpending
    · rw [show s.stopper = none from hlock] at hpending
      cases hpending
  rcases (h.attended e he).settled hnot with hserves | hreplied
  · rw [hexited] at hserves
    cases hserves
  · exact hreplied

/-! ### The signal to stop -/

/-- When the coordinator is stopped, no envelope is left in its mailbox, and the thread finds the
signal to stop. -/
structure Signalled (s : State ρ ε) : Prop where
  emptied : s.stopping = true ∨ s.joined = true → s.stopper = none → ∀ e, .envelope e ∉ s.mailbox
  signal : s.stopping = true → s.stopper = none → .stop ∈ s.mailbox ∨ s.thread.Ending ∨
    s.thread = .exited

/-- A step that takes nothing from the mailbox but envelopes. -/
theorem Signalled.frame (hs : Signalled s) (hstopping : s'.stopping = s.stopping)
    (hjoined : s'.joined = s.joined) (hstopper : s'.stopper = s.stopper)
    (hmailbox : s'.mailbox = s.mailbox ∨ ∃ e, s.mailbox = .envelope e :: s'.mailbox)
    (hthread : s.thread.Ending ∨ s.thread = .exited → s'.thread.Ending ∨ s'.thread = .exited) :
  Signalled s'
  := by
  constructor
  · rw [hstopping, hjoined, hstopper]
    intro hended hnone e hmem
    apply hs.emptied hended hnone e
    rcases hmailbox with h | ⟨e', h⟩
    · rw [← h]
      exact hmem
    · rw [h]
      apply List.mem_cons_of_mem _ hmem
  · rw [hstopping, hstopper]
    intro hstop hnone
    rcases hs.signal hstop hnone with hmem | hending
    · left
      rcases hmailbox with h | ⟨e', h⟩
      · rw [h]
        exact hmem
      · rw [h] at hmem
        apply (List.mem_cons.mp hmem).resolve_left
        nofun
    · right
      apply hthread hending

/-- A step to an end of the thread. -/
theorem Signalled.ending (hs : Signalled s) (hstopping : s'.stopping = s.stopping)
    (hjoined : s'.joined = s.joined) (hstopper : s'.stopper = s.stopper)
    (hmailbox : s'.mailbox ⊆ s.mailbox) (hthread : s'.thread.Ending ∨ s'.thread = .exited) :
  Signalled s'
  := by
  constructor
  · rw [hstopping, hjoined, hstopper]
    intro hended hnone e hmem
    apply hs.emptied hended hnone e (hmailbox hmem)
  · intro _ _
    right
    exact hthread

/-- Every step keeps the signal. -/
theorem Signalled.step (hs : Signalled s) (h : Step timeout stoppedError withdrawnError s s') :
  Signalled s'
  := by
  cases h with
  | submit i observed deadline h hlock haccepting =>
      obtain ⟨_, hjoined, _, hstopping⟩ := haccepting
      constructor
      · rintro (h | h) _
        · rw [show s.stopping = true from h] at hstopping
          cases hstopping
        · rw [show s.joined = true from h] at hjoined
          cases hjoined
      · intro h _
        rw [show s.stopping = true from h] at hstopping
        cases hstopping
  | stop hlock hstopping hjoined =>
      constructor
      · intro _
        nofun
      · intro _
        nofun
  | stopGet e mailbox h hmailbox =>
      constructor
      · intro _
        nofun
      · intro _
        nofun
  | stopSkip mailbox h hmailbox =>
      constructor <;>
      · intro _ hnone
        rw [show s.stopper = none from hnone] at h
        cases h
  | stopReject e h =>
      constructor
      · intro _
        nofun
      · intro _
        nofun
  | stopPut h hmailbox halive =>
      constructor
      · intro _ _ e hmem
        cases List.mem_singleton.mp hmem
      · intro _ _
        left
        apply List.mem_singleton_self
  | stopDead h hmailbox hdead =>
      constructor
      · intro _ _ e hmem
        rw [show s.mailbox = [] from hmailbox] at hmem
        cases hmem
      · intro _ _
        right
        right
        exact hdead
  | join hlock hstopping hexited =>
      constructor
      · intro _ _
        apply hs.emptied (.inl hstopping) hlock
      · nofun
  | get e mailbox h hmailbox =>
      refine hs.frame rfl rfl rfl (.inr ⟨e, hmailbox⟩) ?_
      simp [h, Thread.Ending]
  | drainGet e mailbox h hmailbox =>
      refine hs.frame rfl rfl rfl (.inr ⟨e, hmailbox⟩) ?_
      intro _
      left
      trivial
  | getStop mailbox h hmailbox =>
      refine hs.ending rfl rfl rfl ?_ (.inl trivial)
      rw [show s.mailbox = .stop :: mailbox from hmailbox]
      apply List.subset_cons_self
  | drainSkip mailbox h hmailbox =>
      refine hs.ending rfl rfl rfl ?_ (.inl ?_)
      · rw [show s.mailbox = .stop :: mailbox from hmailbox]
        apply List.subset_cons_self
      · rw [show s.thread = .rejecting none from h]
        trivial
  | drainReject e h => exact hs.ending rfl rfl rfl (List.Subset.refl _) (.inl trivial)
  | drained h hmailbox => exact hs.ending rfl rfl rfl (List.Subset.refl _) (.inl trivial)
  | mark h hlock => exact hs.ending rfl rfl rfl (List.Subset.refl _) (.inl trivial)
  | exit h => exact hs.ending rfl rfl rfl (List.Subset.refl _) (.inr rfl)
  | shutdownFails h hlock => exact hs.ending rfl rfl rfl (List.Subset.refl _) (.inr rfl)
  | startFails h => exact hs.ending rfl rfl rfl (List.Subset.refl _) (.inr rfl)
  | unclaimed h hlock =>
      refine hs.frame rfl rfl rfl (.inl rfl) ?_
      rcases h with h | h <;> simp [h, Thread.Ending]
  | _ =>
      refine hs.frame rfl rfl rfl (.inl rfl) ?_
      first
      | exact id
      | simp [*, Thread.Ending]

/-- A run in which the submitters do nothing and no time passes. -/
structure Unaided (timeout : Int) (stoppedError withdrawnError : ε) (s s' : State ρ ε) :
    Prop where
  run : Relation.ReflTransGen (Step timeout stoppedError withdrawnError) s s'
  callers : s'.callers = s.callers
  count : s'.count = s.count
  clock : s'.clock = s.clock

/-- A run may be empty. -/
theorem Unaided.refl (s : State ρ ε) :
  Unaided timeout stoppedError withdrawnError s s
  := ⟨.refl, rfl, rfl, rfl⟩

/-- Runs follow one another. -/
theorem Unaided.trans {s₁ s₂ s₃ : State ρ ε}
    (h : Unaided timeout stoppedError withdrawnError s₁ s₂)
    (h' : Unaided timeout stoppedError withdrawnError s₂ s₃) :
  Unaided timeout stoppedError withdrawnError s₁ s₃
  := by
  constructor
  · apply h.run.trans h'.run
  · rw [h'.callers, h.callers]
  · rw [h'.count, h.count]
  · rw [h'.clock, h.clock]

/-- A step of the coordinator, or of `stop`. -/
theorem Unaided.single (h : Step timeout stoppedError withdrawnError s s')
    (hcallers : s'.callers = s.callers) (hcount : s'.count = s.count)
    (hclock : s'.clock = s.clock) :
  Unaided timeout stoppedError withdrawnError s s'
  := ⟨.single h, hcallers, hcount, hclock⟩

end MachineCoordinator

end DrawingMachine
