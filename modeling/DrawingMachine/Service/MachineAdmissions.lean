import DrawingMachine.Service.MachineCoordinator

/-!
# What becomes of a submitted command

An envelope goes from the mailbox over the hands of a thread to its withdrawal or to its
admission. The invariants say where the envelopes are, what the chain has answered, and what was
driven; each is first kept by the steps that leave its part of the state alone.
-/

namespace DrawingMachine

namespace MachineCoordinator

variable {ρ ε : Type} {timeout : Int} {stoppedError withdrawnError : ε} {s s' : State ρ ε}

/-! ### Where the envelopes are -/

/-- The admission of an envelope has begun. -/
def Begun (envelope : Envelope ρ ε) : Prop :=
  envelope.state = .admitting ∨ envelope.state = .committed

/-- An envelope is on its way to its claim or to its rejection. -/
def Pending (s : State ρ ε) (e : Nat) : Prop :=
  .envelope e ∈ s.mailbox ∨ s.thread.holds = some e ∨ s.stopper = some (some e)

/-- A queued envelope is on its way, and the chain is asked once for one whose admission has
begun. -/
structure Placed (s : State ρ ε) : Prop where
  fresh : ∀ e, Pending s e → e < s.count
  queued : ∀ e < s.count, (s.envelopes e).state = .queued → Pending s e
  serves : ∀ e, s.thread.serves = some e → e < s.count ∧ Begun (s.envelopes e)
  passed : ∀ e ∈ s.passed, e < s.count ∧ Begun (s.envelopes e)
  once : s.passed.Nodup
  claimed : ∀ e, s.thread = .claimed e → e ∉ s.passed
  begun : ∀ e < s.count, Begun (s.envelopes e) → e ∈ s.passed ∨ s.thread = .claimed e

/-- A step that leaves the states of the envelopes, and every envelope on its way. -/
theorem Placed.frame (hs : Placed s) (hcount : s'.count = s.count)
    (hstate : ∀ e, (s'.envelopes e).state = (s.envelopes e).state)
    (hpending : ∀ e, Pending s' e ↔ Pending s e) (hpassed : s'.passed = s.passed)
    (hserves : ∀ e, s'.thread.serves = some e → s.thread.serves = some e)
    (hclaimed : ∀ e, s'.thread = .claimed e ↔ s.thread = .claimed e) :
  Placed s'
  := by
  have hbegun : ∀ e, Begun (s'.envelopes e) ↔ Begun (s.envelopes e) := by
    intro e
    unfold Begun
    rw [hstate e]
  constructor
  · intro e he
    rw [hcount]
    apply hs.fresh e ((hpending e).mp he)
  · intro e he hqueued
    rw [hcount] at he
    rw [hstate e] at hqueued
    apply (hpending e).mpr (hs.queued e he hqueued)
  · intro e he
    rw [hcount, hbegun e]
    apply hs.serves e (hserves e he)
  · intro e he
    rw [hpassed] at he
    rw [hcount, hbegun e]
    apply hs.passed e he
  · rw [hpassed]
    apply hs.once
  · intro e he
    rw [hpassed]
    apply hs.claimed e ((hclaimed e).mp he)
  · intro e he hb
    rw [hcount] at he
    rw [hbegun e] at hb
    rw [hpassed, hclaimed e]
    apply hs.begun e he hb

/-- An envelope that is no longer queued is withdrawn, and the others are left. -/
theorem Placed.of_rejected (hs : Placed s) {e : Nat} (hcount : s'.count = s.count)
    (hother : ∀ e', e' ≠ e → s'.envelopes e' = s.envelopes e')
    (hstate : (s'.envelopes e).state =
      if (s.envelopes e).state = .queued then .withdrawn else (s.envelopes e).state)
    (hpending : ∀ e', Pending s' e' → Pending s e')
    (hkept : ∀ e', e' ≠ e → Pending s e' → Pending s' e') (hpassed : s'.passed = s.passed)
    (hserves : ∀ e', s'.thread.serves = some e' → s.thread.serves = some e')
    (hclaimed : ∀ e', s'.thread = .claimed e' ↔ s.thread = .claimed e') :
  Placed s'
  := by
  have hbegun : ∀ e', Begun (s'.envelopes e') ↔ Begun (s.envelopes e') := by
    intro e'
    by_cases he : e' = e
    · subst he
      unfold Begun
      rw [hstate]
      cases (s.envelopes e').state <;> simp
    · rw [hother e' he]
  have hqueued : (s'.envelopes e).state ≠ .queued := by
    rw [hstate]
    split
    · simp
    · next h => exact h
  constructor
  · intro e' he
    rw [hcount]
    apply hs.fresh e' (hpending e' he)
  · intro e' he hq
    by_cases heq : e' = e
    · rw [heq] at hq
      apply absurd hq hqueued
    · rw [hcount] at he
      rw [hother e' heq] at hq
      apply hkept e' heq (hs.queued e' he hq)
  · intro e' he
    rw [hcount, hbegun e']
    apply hs.serves e' (hserves e' he)
  · intro e' he
    rw [hpassed] at he
    rw [hcount, hbegun e']
    apply hs.passed e' he
  · rw [hpassed]
    apply hs.once
  · intro e' he
    rw [hpassed]
    apply hs.claimed e' ((hclaimed e').mp he)
  · intro e' he hb
    rw [hcount] at he
    rw [hbegun e'] at hb
    rw [hpassed, hclaimed e']
    apply hs.begun e' he hb

/-- The state of an envelope that is withdrawn. -/
theorem state_withdrawQueued (envelope : Envelope ρ ε) :
  envelope.withdrawQueued.2.state =
    if envelope.state = .queued then .withdrawn else envelope.state
  := by
  unfold Envelope.withdrawQueued
  split <;> simp_all

/-- The state of an envelope that is rejected. -/
theorem state_rejectQueued (envelope : Envelope ρ ε) (error : ε) :
  (envelope.rejectQueued error).2.state =
    if envelope.state = .queued then .withdrawn else envelope.state
  := by
  unfold Envelope.rejectQueued
  split <;> simp_all

/-- The state of an envelope whose admission failed. -/
theorem state_failed (envelope : Envelope ρ ε) (error : ε) :
  (envelope.failed error).state = envelope.state
  := by
  unfold Envelope.failed
  split <;> rfl

/-- The state of an envelope that is changed otherwise. -/
theorem state_update (s : State ρ ε) {e : Nat} {envelope : Envelope ρ ε}
    (h : envelope.state = (s.envelopes e).state) (e' : Nat) :
  ((s.update e envelope).envelopes e').state = (s.envelopes e').state
  := by
  by_cases he : e' = e
  · subst he
    simpa [State.update] using h
  · simp [State.update, he]

/-- The other envelopes when one is changed. -/
theorem envelopes_update_of_ne (s : State ρ ε) {e e' : Nat} (envelope : Envelope ρ ε) (h : e' ≠ e) :
  (s.update e envelope).envelopes e' = s.envelopes e'
  := by
  simp [State.update, h]

/-- The envelope that is changed. -/
theorem envelopes_update_self (s : State ρ ε) (e : Nat) (envelope : Envelope ρ ε) :
  (s.update e envelope).envelopes e = envelope
  := by
  simp [State.update]

/-- A submitted envelope is queued in the mailbox. -/
theorem Placed.submit (hs : Placed s) (i : Nat) (observed : Bool) (deadline : Int) :
  Placed { s with
    count := s.count + 1
    envelopes := Function.update s.envelopes s.count { deadline := deadline }
    mailbox := s.mailbox ++ [.envelope s.count]
    callers := Function.update s.callers i (.waiting observed s.count) }
  := by
  have hother : ∀ e < s.count, Function.update s.envelopes s.count
      ({ deadline := deadline } : Envelope ρ ε) e = s.envelopes e := by
    intro e he
    apply Function.update_of_ne
    omega
  constructor
  · intro e he
    simp only [Pending, List.mem_append, List.mem_singleton, Item.envelope.injEq] at he
    have hpending : Pending s e ∨ e = s.count := by
      unfold Pending
      tauto
    rcases hpending with hp | rfl
    · have := hs.fresh e hp
      simp only
      omega
    · simp
  · intro e he hq
    simp only [Pending, List.mem_append, List.mem_singleton, Item.envelope.injEq]
    simp only at he hq
    by_cases heq : e = s.count
    · tauto
    · have hlt : e < s.count := by omega
      rw [hother e hlt] at hq
      have hp := hs.queued e hlt hq
      unfold Pending at hp
      tauto
  · intro e he
    obtain ⟨hlt, hb⟩ := hs.serves e he
    simp only [hother e hlt]
    refine ⟨by omega, hb⟩
  · intro e he
    obtain ⟨hlt, hb⟩ := hs.passed e he
    simp only [hother e hlt]
    refine ⟨by omega, hb⟩
  · apply hs.once
  · apply hs.claimed
  · intro e he hb
    simp only at he hb
    by_cases heq : e = s.count
    · subst heq
      simp [Begun] at hb
    · have hlt : e < s.count := by omega
      rw [hother e hlt] at hb
      apply hs.begun e hlt hb

/-- A claimed envelope is taken for admission, when it is queued. -/
theorem Placed.claim (hs : Placed s) {e : Nat} (h : s.thread = .received e) :
  Placed ((s.update e (s.envelopes e).beginAdmission.2).goto
    (if (s.envelopes e).beginAdmission.1 then .claimed e else .unclaimed))
  := by
  have hlt : e < s.count := hs.fresh e (.inr (.inl (by rw [h]; rfl)))
  by_cases hq : (s.envelopes e).state = .queued
  · have hbegin : (s.envelopes e).beginAdmission =
        (true, { s.envelopes e with state := .admitting }) := by
      simp [Envelope.beginAdmission, hq]
    have hnot : ¬ Begun (s.envelopes e) := by simp [Begun, hq]
    have hfresh : e ∉ s.passed := fun hp => hnot (hs.passed e hp).2
    simp only [hbegin, if_true]
    have hother : ∀ e', e' ≠ e →
        (s.update e { s.envelopes e with state := .admitting }).envelopes e' = s.envelopes e' := fun e' he => envelopes_update_of_ne s _ he
    have hpending : ∀ e', e' ≠ e → Pending s e' →
        .envelope e' ∈ s.mailbox ∨ s.stopper = some (some e') := by
      rintro e' hne (hp | hp | hp)
      · left
        exact hp
      · rw [h] at hp
        cases hp
        exact absurd rfl hne
      · right
        exact hp
    constructor
    · rintro e' (he | he | he)
      · exact hs.fresh e' (.inl he)
      · cases he
      · exact hs.fresh e' (.inr (.inr he))
    · intro e' he hq'
      by_cases heq : e' = e
      · subst heq
        simp [State.goto, State.update] at hq'
      · have hq'' : (s.envelopes e').state = .queued := by
          rw [← hother e' heq]
          exact hq'
        rcases hpending e' heq (hs.queued e' he hq'') with hp | hp
        · exact .inl hp
        · exact .inr (.inr hp)
    · intro e' he
      obtain rfl := Option.some.inj he
      refine ⟨hlt, ?_⟩
      left
      simp [State.goto, State.update]
    · intro e' he
      obtain ⟨hlt', hb⟩ := hs.passed e' he
      have hne : e' ≠ e := by
        rintro rfl
        exact hfresh he
      refine ⟨hlt', ?_⟩
      simpa [State.goto, hother e' hne] using hb
    · exact hs.once
    · intro e' he
      obtain rfl := Thread.claimed.inj he
      exact hfresh
    · intro e' he hb
      by_cases heq : e' = e
      · right
        rw [heq]
        rfl
      · left
        have hb' : Begun (s.envelopes e') := by
          rw [← hother e' heq]
          exact hb
        rcases hs.begun e' he hb' with hp | hp
        · exact hp
        · rw [h] at hp
          cases hp
  · have hbegin : (s.envelopes e).beginAdmission = (false, s.envelopes e) := by
      simp [Envelope.beginAdmission, hq]
    simp only [hbegin, Bool.false_eq_true, if_false]
    apply hs.of_rejected (e := e)
    · rfl
    · intro e' he
      exact envelopes_update_of_ne s _ he
    · rw [if_neg hq]
      simp [State.goto, State.update]
    · rintro e' (he | he | he)
      · exact .inl he
      · cases he
      · exact .inr (.inr he)
    · rintro e' hne (he | he | he)
      · exact .inl he
      · rw [h] at he
        cases he
        exact absurd rfl hne
      · exact .inr (.inr he)
    · rfl
    · intro e' he
      cases he
    · intro e'
      simp [State.goto, h]

/-- The command of a claimed envelope is passed to the chain. -/
theorem Placed.pass (hs : Placed s) {e : Nat} (h : s.thread = .claimed e) :
  Placed { s.goto (.admitting e 0) with passed := e :: s.passed }
  := by
  have hserved := hs.serves e (by rw [h]; rfl)
  constructor
  · rintro e' (he | he | he)
    · exact hs.fresh e' (.inl he)
    · cases he
    · exact hs.fresh e' (.inr (.inr he))
  · intro e' he hq
    rcases hs.queued e' he hq with hp | hp | hp
    · exact .inl hp
    · rw [h] at hp
      cases hp
    · exact .inr (.inr hp)
  · intro e' he
    obtain rfl := Option.some.inj he
    exact hserved
  · intro e' he
    rcases List.mem_cons.mp he with rfl | he
    · exact hserved
    · exact hs.passed e' he
  · exact List.nodup_cons.mpr ⟨hs.claimed e h, hs.once⟩
  · intro e' he
    cases he
  · intro e' he hb
    left
    rcases hs.begun e' he hb with hp | hp
    · exact List.mem_cons_of_mem _ hp
    · rw [h] at hp
      obtain rfl := Thread.claimed.inj hp
      exact List.mem_cons_self

/-- The admission of an envelope that is served is acknowledged. -/
theorem Placed.acknowledge (hs : Placed s) {e : Nat} {result : ρ} {drives : Bool}
    (h : s.thread = .admitted e result drives) :
  Placed ((s.update e ((s.envelopes e).commit result).2).goto (.acknowledged e drives))
  := by
  obtain ⟨hlt, hb⟩ := hs.serves e (by rw [h]; rfl)
  have hcommitted : (((s.envelopes e).commit result).2).state = .committed := by
    unfold Envelope.commit
    rcases hb with hb | hb <;> simp [hb]
  have hbegun : ∀ e', Begun ((s.update e ((s.envelopes e).commit result).2).envelopes e') ↔
      Begun (s.envelopes e') := by
    intro e'
    by_cases he : e' = e
    · subst he
      rw [envelopes_update_self]
      exact ⟨fun _ => hb, fun _ => .inr hcommitted⟩
    · rw [envelopes_update_of_ne s _ he]
  have hpending : ∀ e', Pending ((s.update e ((s.envelopes e).commit result).2).goto
      (.acknowledged e drives)) e' ↔ Pending s e' := by
    intro e'
    simp [Pending, State.goto, State.update, Thread.holds, h]
  constructor
  · intro e' he
    exact hs.fresh e' ((hpending e').mp he)
  · intro e' he hq
    apply (hpending e').mpr
    by_cases heq : e' = e
    · subst heq
      simp only [State.goto, envelopes_update_self, hcommitted] at hq
      cases hq
    · apply hs.queued e' he
      simpa [State.goto, envelopes_update_of_ne s _ heq] using hq
  · intro e' he
    obtain rfl := Option.some.inj he
    exact ⟨hlt, (hbegun e).mpr hb⟩
  · intro e' he
    obtain ⟨hlt', hb'⟩ := hs.passed e' he
    exact ⟨hlt', (hbegun e').mpr hb'⟩
  · exact hs.once
  · intro e' he
    cases he
  · intro e' he hb'
    left
    rcases hs.begun e' he ((hbegun e').mp hb') with hp | hp
    · exact hp
    · rw [h] at hp
      cases hp

/-- A step that changes none of this. -/
theorem Placed.idle (hs : Placed s) (hcount : s'.count = s.count)
    (henvelopes : s'.envelopes = s.envelopes) (hmailbox : s'.mailbox = s.mailbox)
    (hstopper : s'.stopper = s.stopper) (hthread : s'.thread = s.thread)
    (hpassed : s'.passed = s.passed) :
  Placed s'
  := by
  apply hs.frame hcount
  · intro e
    rw [henvelopes]
  · intro e
    unfold Pending
    rw [hmailbox, hstopper, hthread]
  · exact hpassed
  · intro e
    rw [hthread]
    exact id
  · intro e
    rw [hthread]

/-- A step of the coordinator that leaves the envelopes, the mailbox and what it was asked for. -/
theorem Placed.goto (hs : Placed s) {t : Thread ρ ε} (hholds : t.holds = s.thread.holds)
    (hserves : ∀ e, t.serves = some e → s.thread.serves = some e)
    (hclaimed : ∀ e, t = .claimed e ↔ s.thread = .claimed e) :
  Placed (s.goto t)
  := by
  refine hs.frame rfl (fun _ => rfl) ?_ rfl hserves hclaimed
  intro e
  simp only [Pending, State.goto, hholds]

/-- A step of the coordinator that changes an envelope, and not its state. -/
theorem Placed.update (hs : Placed s) {e : Nat} (envelope : Envelope ρ ε)
    (h : envelope.state = (s.envelopes e).state) :
  Placed (s.update e envelope)
  := by
  exact hs.frame rfl (state_update s h) (fun _ => Iff.rfl) rfl (fun _ h => h) (fun _ => Iff.rfl)

/-- Every step keeps the envelopes in their places. -/
theorem Placed.step (hs : Placed s) (h : Step timeout stoppedError withdrawnError s s') :
  Placed s'
  := by
  cases h with
  | submit i observed deadline h hlock haccepting => exact hs.submit i observed deadline
  | withdraw i e h =>
      apply hs.of_rejected (e := e)
      · rfl
      · exact fun e' he => envelopes_update_of_ne s _ he
      · rw [← state_withdrawQueued]
        exact congrArg Envelope.state (envelopes_update_self s e _)
      · exact fun _ h => h
      · exact fun _ _ h => h
      · rfl
      · exact fun _ h => h
      · exact fun _ => Iff.rfl
  | stopGet e mailbox h hmailbox =>
      refine hs.frame rfl (fun _ => rfl) ?_ rfl (fun _ h => h) (fun _ => Iff.rfl)
      intro e'
      simp only [Pending, h, hmailbox, List.mem_cons, Item.envelope.injEq, Option.some.injEq]
      grind
  | stopSkip mailbox h hmailbox =>
      refine hs.frame rfl (fun _ => rfl) ?_ rfl (fun _ h => h) (fun _ => Iff.rfl)
      intro e'
      simp [Pending, hmailbox]
  | stopReject e h =>
      apply hs.of_rejected (e := e)
      · rfl
      · exact fun e' he => envelopes_update_of_ne s _ he
      · rw [← state_rejectQueued]
        exact congrArg Envelope.state (envelopes_update_self s e _)
      · rintro e' (he | he | he)
        · exact .inl he
        · exact .inr (.inl he)
        · cases he
      · rintro e' hne (he | he | he)
        · exact .inl he
        · exact .inr (.inl he)
        · rw [h] at he
          cases he
          exact absurd rfl hne
      · rfl
      · exact fun _ h => h
      · exact fun _ => Iff.rfl
  | stop hlock hstopping hjoined =>
      refine hs.frame rfl (fun _ => rfl) ?_ rfl (fun _ h => h) (fun _ => Iff.rfl)
      intro e
      have hnone : s.stopper = none := hlock
      simp [Pending, hnone]
  | stopPut h hmailbox halive =>
      refine hs.frame rfl (fun _ => rfl) ?_ rfl (fun _ h => h) (fun _ => Iff.rfl)
      intro e
      simp [Pending, h, hmailbox]
  | stopDead h hmailbox hdead =>
      refine hs.frame rfl (fun _ => rfl) ?_ rfl (fun _ h => h) (fun _ => Iff.rfl)
      intro e
      simp [Pending, h]
  | start h => exact hs.goto (by rw [h]; rfl) (by intro e he; cases he) (by simp [h])
  | startFails h =>
      have hexited : Placed (s.goto .exited) :=
        hs.goto (by rw [h]; rfl) (by intro e he; cases he) (by simp [h])
      exact hexited.idle rfl rfl rfl rfl rfl rfl
  | get e mailbox h hmailbox =>
      refine hs.frame rfl (fun _ => rfl) ?_ rfl (by intro e he; cases he) (by simp [State.goto, h])
      intro e'
      simp only [Pending, State.goto, h, hmailbox, Thread.holds, List.mem_cons, Item.envelope.injEq,
        Option.some.injEq, reduceCtorEq, false_or]
      grind
  | getStop mailbox h hmailbox =>
      refine hs.frame rfl (fun _ => rfl) ?_ rfl (by intro e he; cases he) (by simp [State.goto, h])
      intro e'
      simp [Pending, State.goto, h, hmailbox, Thread.holds]
  | claimStopped e h hlock hstopping =>
      apply hs.of_rejected (e := e)
      · rfl
      · exact fun e' he => envelopes_update_of_ne s _ he
      · rw [← state_rejectQueued]
        exact congrArg Envelope.state (envelopes_update_self s e _)
      · rintro e' (he | he | he)
        · exact .inl he
        · cases he
        · exact .inr (.inr he)
      · rintro e' hne (he | he | he)
        · exact .inl he
        · rw [h] at he
          cases he
          exact absurd rfl hne
        · exact .inr (.inr he)
      · rfl
      · intro e' he
        cases he
      · simp [State.goto, h]
  | claim e h hlock hstopping => exact hs.claim h
  | unclaimed h hlock =>
      rcases h with h | h <;> cases s.stopping <;>
      · exact hs.goto (by rw [h]; rfl) (by intro e he; cases he) (by simp [h])
  | pass e h => exact hs.pass h
  | check e n h =>
      have hchecked : Placed (s.goto (if (s.envelopes e).stillRequested s.clock then
          .admitting e (n + 1) else .raising e withdrawnError false)) := by
        cases (s.envelopes e).stillRequested s.clock with
        | true => exact hs.goto (by rw [h]; rfl) (by rw [h]; exact fun _ h => h) (by simp [h])
        | false => exact hs.goto (by rw [h]; rfl) (by rw [h]; exact fun _ h => h) (by simp [h])
      exact hchecked.idle rfl rfl rfl rfl rfl rfl
  | raise e n error fatal h =>
      exact hs.goto (by rw [h]; rfl) (by rw [h]; exact fun _ h => h) (by simp [h])
  | fail e error fatal h =>
      have hupdated := hs.update _ (state_failed (s.envelopes e) error)
      cases fatal with
      | true =>
          apply hupdated.goto (t := .failing e error)
          · simp [State.update, h, Thread.holds]
          · simp [State.update, h, Thread.serves]
          · simp [State.update, h]
      | false =>
          apply hupdated.goto (t := .settled)
          · simp [State.update, h, Thread.holds]
          · intro e' he
            cases he
          · simp [State.update, h]
  | commit e n result drives h hchecks =>
      have hadmitted : Placed (s.goto (.admitted e result drives)) :=
        hs.goto (by rw [h]; rfl) (by rw [h]; exact fun _ h => h) (by simp [h])
      exact hadmitted.idle rfl rfl rfl rfl rfl rfl
  | acknowledge e result drives h => exact hs.acknowledge h
  | publish e h =>
      apply (hs.update (e := e) { s.envelopes e with projectionReady := true } rfl).goto
      · simp [State.update, h, Thread.holds]
      · intro e' he
        cases he
      · simp [State.update, h]
  | drive e h =>
      have hdriving : Placed ((s.update e { s.envelopes e with projectionReady := true }).goto
          (.driving e)) := by
        apply (hs.update (e := e) { s.envelopes e with projectionReady := true } rfl).goto
        · simp [State.update, h, Thread.holds]
        · simp [State.update, h, Thread.serves]
        · simp [State.update, h]
      exact hdriving.idle rfl rfl rfl rfl rfl rfl
  | publishFails e drives error h =>
      apply (hs.update (e := e) { s.envelopes e with projectionReady := true } rfl).goto
      · simp [State.update, h, Thread.holds]
      · simp [State.update, h, Thread.serves]
      · simp [State.update, h]
  | driven e h => exact hs.goto (by rw [h]; rfl) (by intro e he; cases he) (by simp [h])
  | driveFails e error h =>
      exact hs.goto (by rw [h]; rfl) (by rw [h]; exact fun _ h => h) (by simp [h])
  | failed e error h =>
      exact (hs.update _ (state_failed (s.envelopes e) error)).goto
        (by simp [State.update, h, Thread.holds]) (by intro e' he; cases he)
        (by simp [State.update, h])
  | mark h hlock =>
      have hrejecting : Placed (s.goto (.rejecting none)) :=
        hs.goto (by rw [h]; rfl) (by intro e he; cases he) (by simp [h])
      exact hrejecting.idle rfl rfl rfl rfl rfl rfl
  | drainGet e mailbox h hmailbox =>
      refine hs.frame rfl (fun _ => rfl) ?_ rfl (by intro e he; cases he) (by simp [State.goto, h])
      intro e'
      simp only [Pending, State.goto, h, hmailbox, Thread.holds, List.mem_cons, Item.envelope.injEq,
        Option.some.injEq, reduceCtorEq, false_or]
      grind
  | drainSkip mailbox h hmailbox =>
      refine hs.frame rfl (fun _ => rfl) ?_ rfl (fun _ h => h) (fun _ => Iff.rfl)
      intro e'
      simp [Pending, hmailbox]
  | drainReject e h =>
      apply hs.of_rejected (e := e)
      · rfl
      · exact fun e' he => envelopes_update_of_ne s _ he
      · rw [← state_rejectQueued]
        exact congrArg Envelope.state (envelopes_update_self s e _)
      · rintro e' (he | he | he)
        · exact .inl he
        · cases he
        · exact .inr (.inr he)
      · rintro e' hne (he | he | he)
        · exact .inl he
        · rw [h] at he
          cases he
          exact absurd rfl hne
        · exact .inr (.inr he)
      · rfl
      · intro e' he
        cases he
      · simp [State.goto, h]
  | drained h hmailbox => exact hs.goto (by rw [h]; rfl) (by intro e he; cases he) (by simp [h])
  | exit h => exact hs.goto (by rw [h]; rfl) (by intro e he; cases he) (by simp [h])
  | shutdownFails h hlock =>
      have hexited : Placed (s.goto .exited) :=
        hs.goto (by rw [h]; rfl) (by intro e he; cases he) (by simp [h])
      exact hexited.idle rfl rfl rfl rfl rfl rfl
  | tick d => exact hs.idle rfl rfl rfl rfl rfl rfl
  | _ => exact hs.idle rfl rfl rfl rfl rfl rfl

end MachineCoordinator

end DrawingMachine
