import DrawingMachine.Service.MachineAdmissions

/-!
# What a step of the machine coordinator can do

Each lemma says what the steps do to one part of the state: to an envelope, to the thread of the
coordinator, to what the chain was asked and has answered, and to the calls of `submit`. The
invariants of the coordinator are derived from these alone.
-/

namespace DrawingMachine

namespace MachineCoordinator

variable {ρ ε : Type} {timeout : Int} {stoppedError withdrawnError : ε} {s s' : State ρ ε}

/-! ### The envelopes -/

/-- What a step can do to an envelope. -/
inductive Change (s : State ρ ε) (e : Nat) : Envelope ρ ε → Prop
  | same : Change s e (s.envelopes e)
  | submit (deadline : Int) (h : e = s.count) : Change s e { deadline := deadline }
  | withdraw : Change s e (s.envelopes e).withdrawQueued.2
  | reject (error : ε) : Change s e ((s.envelopes e).rejectQueued error).2
  | claim (h : s.thread = .received e) (hstopping : s.stopping = false) :
      Change s e (s.envelopes e).beginAdmission.2
  | fail (error : ε) : Change s e ((s.envelopes e).failed error)
  | commit (result : ρ) (drives : Bool) (h : s.thread = .admitted e result drives) :
      Change s e ((s.envelopes e).commit result).2
  | publish : Change s e { s.envelopes e with projectionReady := true }

/-- When one envelope is changed. -/
theorem Change.update {e : Nat} {envelope : Envelope ρ ε} (h : Change s e envelope) (e' : Nat) :
  Change s e' ((s.update e envelope).envelopes e')
  := by
  by_cases he : e' = e
  · subst he
    rw [envelopes_update_self]
    exact h
  · rw [envelopes_update_of_ne s _ he]
    exact .same

/-- What a step does to an envelope. -/
theorem Step.change (h : Step timeout stoppedError withdrawnError s s') (e : Nat) :
  Change s e (s'.envelopes e)
  := by
  cases h with
  | submit i observed deadline h hlock haccepting =>
      have hnew : Change s s.count { deadline := deadline } := .submit deadline rfl
      exact hnew.update e
  | withdraw i e' h => exact Change.withdraw.update e
  | stopReject e' h => exact (Change.reject stoppedError).update e
  | claimStopped e' h hlock hstopping => exact (Change.reject stoppedError).update e
  | claim e' h hlock hstopping => exact (Change.claim h hstopping).update e
  | fail e' error fatal h => exact (Change.fail error).update e
  | acknowledge e' result drives h => exact (Change.commit result drives h).update e
  | publish e' h => exact Change.publish.update e
  | drive e' h => exact Change.publish.update e
  | publishFails e' drives error h => exact Change.publish.update e
  | failed e' error h => exact (Change.fail error).update e
  | drainReject e' h => exact (Change.reject stoppedError).update e
  | _ => exact .same

/-- The result of an envelope is set when its admission is acknowledged. -/
theorem Step.result (h : Step timeout stoppedError withdrawnError s s') {e : Nat} {result : ρ}
    (hresult : (s'.envelopes e).result = some result) :
  (s.envelopes e).result = some result ∨ ∃ drives, s.thread = .admitted e result drives
  := by
  have hchange := h.change e
  generalize s'.envelopes e = envelope at hchange hresult
  cases hchange with
  | same => exact .inl hresult
  | submit deadline h => cases hresult
  | withdraw =>
      unfold Envelope.withdrawQueued at hresult
      split at hresult <;> exact .inl hresult
  | reject error =>
      unfold Envelope.rejectQueued at hresult
      split at hresult <;> exact .inl hresult
  | claim h hstopping =>
      unfold Envelope.beginAdmission at hresult
      split at hresult <;> exact .inl hresult
  | fail error =>
      unfold Envelope.failed at hresult
      split at hresult <;> exact .inl hresult
  | commit result' drives h =>
      unfold Envelope.commit at hresult
      split at hresult
      · exact .inl hresult
      · right
        obtain rfl := Option.some.inj hresult
        use drives
  | publish => exact .inl hresult

/-- The deadline of an envelope stays. -/
theorem Step.deadline (h : Step timeout stoppedError withdrawnError s s') {e : Nat}
    (he : e < s.count) :
  (s'.envelopes e).deadline = (s.envelopes e).deadline
  := by
  have hchange := h.change e
  generalize s'.envelopes e = envelope at hchange
  cases hchange with
  | submit deadline h => omega
  | withdraw =>
      unfold Envelope.withdrawQueued
      split <;> rfl
  | reject error =>
      unfold Envelope.rejectQueued
      split <;> rfl
  | claim h hstopping =>
      unfold Envelope.beginAdmission
      split <;> rfl
  | fail error =>
      unfold Envelope.failed
      split <;> rfl
  | commit result drives h =>
      unfold Envelope.commit
      split <;> rfl
  | _ => rfl

/-- An envelope that is no longer queued is not queued again. -/
theorem Step.not_queued (h : Step timeout stoppedError withdrawnError s s') {e : Nat}
    (he : e < s.count) (hstate : (s.envelopes e).state ≠ .queued) :
  (s'.envelopes e).state ≠ .queued
  := by
  have hchange := h.change e
  generalize s'.envelopes e = envelope at hchange
  cases hchange with
  | submit deadline h => omega
  | withdraw => simp [state_withdrawQueued, hstate]
  | reject error => simp [state_rejectQueued, hstate]
  | claim h hstopping => simp [Envelope.beginAdmission, hstate]
  | fail error => simpa [state_failed] using hstate
  | commit result drives h =>
      unfold Envelope.commit
      split
      · exact hstate
      · simp
  | _ => exact hstate

/-- An envelope that is withdrawn stays withdrawn. -/
theorem Step.withdrawn (h : Step timeout stoppedError withdrawnError s s') {e : Nat}
    (he : e < s.count) (hstate : (s.envelopes e).state = .withdrawn) :
  (s'.envelopes e).state = .withdrawn
  := by
  have hchange := h.change e
  generalize s'.envelopes e = envelope at hchange
  cases hchange with
  | submit deadline h => omega
  | withdraw => simp [state_withdrawQueued, hstate]
  | reject error => simp [state_rejectQueued, hstate]
  | claim h hstopping => simp [Envelope.beginAdmission, hstate]
  | fail error => simpa [state_failed] using hstate
  | commit result drives h => simp [Envelope.commit, hstate]
  | _ => exact hstate

/-- The thread holds a result after the chain has admitted it. -/
theorem Step.admitted (h : Step timeout stoppedError withdrawnError s s') {e : Nat} {result : ρ}
    {drives : Bool} (hthread : s'.thread = .admitted e result drives) :
  s.thread = .admitted e result drives ∨
    (∃ n, s.thread = .admitting e n ∧ (if drives then 2 else 1) ≤ n) ∧
      s'.admissions = (e, result) :: s.admissions ∧ s'.checks = s.checks
  := by
  cases h with
  | commit e' n result' drives' h hchecks =>
      cases hthread
      right
      exact ⟨⟨n, h, hchecks⟩, rfl, rfl⟩
  | claim e' h hlock hstopping =>
      revert hthread
      simp only [State.goto]
      split <;> simp
  | unclaimed h hlock =>
      revert hthread
      simp only [State.goto]
      split <;> simp
  | check e' n h =>
      revert hthread
      simp only [State.goto]
      split <;> simp
  | fail e' error fatal h =>
      revert hthread
      simp only [State.goto]
      split <;> simp
  | _ => first | exact .inl hthread | cases hthread

/-- The results of the admissions grow when the chain admits a command. -/
theorem Step.admissions (h : Step timeout stoppedError withdrawnError s s') :
  s'.admissions = s.admissions ∧ s'.passed = s.passed ∨
    (∃ e, s.thread = .claimed e ∧ s'.thread = .admitting e 0 ∧ s'.passed = e :: s.passed ∧
      s'.admissions = s.admissions) ∨
    ∃ e n result drives, s.thread = .admitting e n ∧ s'.thread = .admitted e result drives ∧
      s'.passed = s.passed ∧ s'.admissions = (e, result) :: s.admissions
  := by
  cases h with
  | pass e h => exact .inr (.inl ⟨e, h, rfl, rfl, rfl⟩)
  | commit e n result drives h hchecks =>
      exact .inr (.inr ⟨e, n, result, drives, h, rfl, rfl, rfl⟩)
  | _ => exact .inl ⟨rfl, rfl⟩

/-- The thread admits a command that it has claimed, or has found it still requested. -/
theorem Step.admitting (h : Step timeout stoppedError withdrawnError s s') {e n : Nat}
    (hthread : s'.thread = .admitting e n) :
  s.thread = .admitting e n ∧ s'.checks = s.checks ∨
    s.thread = .claimed e ∧ n = 0 ∧ s'.checks = s.checks ∨
    ∃ m, s.thread = .admitting e m ∧ n = m + 1 ∧
      (s.envelopes e).stillRequested s.clock = true ∧ s'.checks = (e, s.clock, true) :: s.checks
  := by
  cases h with
  | pass e' h =>
      cases hthread
      exact .inr (.inl ⟨h, rfl, rfl⟩)
  | check e' m h =>
      right
      right
      simp only [State.goto] at hthread ⊢
      split at hthread
      · next hrequested =>
          cases hthread
          exact ⟨m, h, rfl, hrequested, by rw [hrequested]⟩
      · cases hthread
  | claim e' h hlock hstopping =>
      revert hthread
      simp only [State.goto]
      split <;> simp
  | unclaimed h hlock =>
      revert hthread
      simp only [State.goto]
      split <;> simp
  | fail e' error fatal h =>
      revert hthread
      simp only [State.goto]
      split <;> simp
  | _ => first | exact .inl ⟨hthread, rfl⟩ | cases hthread

/-- A check is made of the command that is being admitted. -/
theorem Step.checks (h : Step timeout stoppedError withdrawnError s s') :
  s'.checks = s.checks ∨ ∃ e n, s.thread = .admitting e n ∧
    s'.checks = (e, s.clock, (s.envelopes e).stillRequested s.clock) :: s.checks
  := by
  cases h with
  | check e n h => exact .inr ⟨e, n, h, rfl⟩
  | _ => exact .inl rfl

/-- A command is driven after its admission is acknowledged. -/
theorem Step.driven_eq (h : Step timeout stoppedError withdrawnError s s') :
  s'.driven = s.driven ∨ ∃ e, s.thread = .acknowledged e true ∧ s'.thread = .driving e ∧
    s'.driven = e :: s.driven
  := by
  cases h with
  | drive e h => exact .inr ⟨e, h, rfl, rfl⟩
  | _ => exact .inl rfl

/-- A command is acknowledged after the chain has admitted it. -/
theorem Step.acknowledging (h : Step timeout stoppedError withdrawnError s s') {e : Nat}
    {drives : Bool} (hthread : s'.thread = .acknowledged e drives) :
  s.thread = .acknowledged e drives ∨ ∃ result, s.thread = .admitted e result drives
  := by
  cases h with
  | acknowledge e' result drives' h =>
      cases hthread
      exact .inr ⟨result, h⟩
  | claim e' h hlock hstopping =>
      revert hthread
      simp only [State.goto]
      split <;> simp
  | unclaimed h hlock =>
      revert hthread
      simp only [State.goto]
      split <;> simp
  | check e' n h =>
      revert hthread
      simp only [State.goto]
      split <;> simp
  | fail e' error fatal h =>
      revert hthread
      simp only [State.goto]
      split <;> simp
  | _ => first | exact .inl hthread | cases hthread

/-! ### The calls -/

/-- A call has the result of its envelope. -/
def Caller.result : Caller ρ ε → Option (Nat × ρ)
  | .projecting e result => some (e, result)
  | .returned e result => some (e, result)
  | _ => none

/-- A call reads its result from its envelope. -/
theorem Step.caller (h : Step timeout stoppedError withdrawnError s s') {i e : Nat} {result : ρ}
    (hcaller : (s'.callers i).result = some (e, result)) :
  (s.callers i).result = some (e, result) ∨ (s.envelopes e).result = some result
  := by
  have hupdate : ∀ (j : Nat) (c : Caller ρ ε), (c.result = none ∨ c.result = (s.callers j).result ∨
      ∀ e result, c.result = some (e, result) → (s.envelopes e).result = some result) →
      (Function.update s.callers j c i).result = some (e, result) →
      (s.callers i).result = some (e, result) ∨ (s.envelopes e).result = some result := by
    intro j c hc h
    simp only [Function.update_apply] at h
    split at h
    · next hij =>
        subst hij
        rcases hc with hc | hc | hc
        · rw [hc] at h
          cases h
        · rw [hc] at h
          exact .inl h
        · exact .inr (hc e result h)
    · exact .inl h
  cases h with
  | call j observed h => exact hupdate j _ (.inl rfl) hcaller
  | submit j observed deadline h hlock haccepting => exact hupdate j _ (.inl rfl) hcaller
  | refuse j observed deadline h hlock haccepting => exact hupdate j _ (.inl rfl) hcaller
  | acknowledged j observed e' h hacknowledged => exact hupdate j _ (.inl rfl) hcaller
  | expire j observed e' h hdeadline => exact hupdate j _ (.inl rfl) hcaller
  | withdraw j e' h => exact hupdate j _ (.inl rfl) hcaller
  | answer j observed e' h =>
      apply hupdate j _ _ hcaller
      right
      right
      intro e result
      unfold MachineCoordinator.answer
      split
      · intro h
        cases h
      · intro h
        cases h
      · next result' herror hresult =>
          cases observed <;>
          · intro h
            cases h
            exact hresult
  | project j e' result' h hready =>
      apply hupdate j _ _ hcaller
      right
      left
      rw [h]
      rfl
  | _ => exact .inl hcaller

/-- The envelope of a call that has put it into the mailbox. -/
def Caller.envelope : Caller ρ ε → Option Nat
  | .waiting _ e => some e
  | .expired e => some e
  | .timedOut e => some e
  | _ => none

/-- The submitted envelopes stay. -/
theorem Step.count_le (h : Step timeout stoppedError withdrawnError s s') :
  s.count ≤ s'.count
  := by
  cases h with
  | submit i observed deadline h hlock haccepting => apply Nat.le_succ
  | _ => exact Nat.le_refl _

/-- The envelope of a call after a step. -/
theorem Step.envelope (h : Step timeout stoppedError withdrawnError s s') {i e : Nat}
    (henvelope : (s'.callers i).envelope = some e) :
  (s.callers i).envelope = some e ∨ e = s.count ∧ s'.count = s.count + 1
  := by
  have hupdate : ∀ (j : Nat) (c : Caller ρ ε),
      (∀ e, c.envelope = some e → (s.callers j).envelope = some e) →
      (Function.update s.callers j c i).envelope = some e →
      (s.callers i).envelope = some e := by
    intro j c hc h
    simp only [Function.update_apply] at h
    split at h
    · next hij =>
        subst hij
        apply hc e h
    · exact h
  have hend : ∀ c : Caller ρ ε, c.envelope = none → ∀ {j}, ∀ e, c.envelope = some e →
      (s.callers j).envelope = some e := by
    intro c hc j e he
    rw [hc] at he
    cases he
  cases h with
  | call j observed h => exact .inl (hupdate j _ (hend _ rfl) henvelope)
  | submit j observed deadline h hlock haccepting =>
      simp only [Function.update_apply] at henvelope
      split at henvelope
      · right
        exact ⟨(Option.some.inj henvelope).symm, rfl⟩
      · exact .inl henvelope
  | refuse j observed deadline h hlock haccepting => exact .inl (hupdate j _ (hend _ rfl) henvelope)
  | acknowledged j observed e' h hacknowledged => exact .inl (hupdate j _ (hend _ rfl) henvelope)
  | expire j observed e' h hdeadline =>
      left
      apply hupdate j _ _ henvelope
      intro e he
      rw [h]
      exact he
  | withdraw j e' h =>
      left
      apply hupdate j _ _ henvelope
      intro e he
      rw [h]
      exact he
  | answer j observed e' h =>
      left
      apply hupdate j _ (hend _ _) henvelope
      unfold MachineCoordinator.answer
      split
      · rfl
      · rfl
      · cases observed <;> rfl
  | project j e' result h hready => exact .inl (hupdate j _ (hend _ rfl) henvelope)
  | _ => exact .inl henvelope

/-- A call times out when it has taken its envelope back. -/
theorem Step.timedOut (h : Step timeout stoppedError withdrawnError s s') {i e : Nat}
    (hcaller : s'.callers i = .timedOut e) :
  s.callers i = .timedOut e ∨ (s'.envelopes e).state ≠ .queued
  := by
  have hupdate : ∀ (j : Nat) (c : Caller ρ ε), c ≠ .timedOut e →
      Function.update s.callers j c i = .timedOut e → s.callers i = .timedOut e := by
    intro j c hc h
    simp only [Function.update_apply] at h
    split at h
    · apply absurd h hc
    · exact h
  cases h with
  | call j observed h => exact .inl (hupdate j _ (by simp) hcaller)
  | submit j observed deadline h hlock haccepting => exact .inl (hupdate j _ (by simp) hcaller)
  | refuse j observed deadline h hlock haccepting => exact .inl (hupdate j _ (by simp) hcaller)
  | acknowledged j observed e' h hacknowledged => exact .inl (hupdate j _ (by simp) hcaller)
  | expire j observed e' h hdeadline => exact .inl (hupdate j _ (by simp) hcaller)
  | withdraw j e' h =>
      by_cases he : e' = e
      · right
        subst he
        have hstate := state_withdrawQueued (s.envelopes e')
        simp only [State.caller, envelopes_update_self]
        rw [hstate]
        split
        · simp
        · next hq => exact hq
      · left
        apply hupdate j _ _ hcaller
        simpa using he
  | answer j observed e' h =>
      left
      apply hupdate j _ _ hcaller
      unfold MachineCoordinator.answer
      split
      · simp
      · simp
      · cases observed <;> simp
  | project j e' result h hready => exact .inl (hupdate j _ (by simp) hcaller)
  | _ => exact .inl hcaller

end MachineCoordinator

end DrawingMachine
