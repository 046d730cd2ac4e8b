import DrawingMachine.Persistence.Admissions

/-!
# Decisions on challenges

A challenge is issued pending, and the transactions decide it by a replacement of its row. Along
every history of committed and rolled-back transactions each challenge is decided at most once,
its decision stays, and nothing but the decision of a row ever changes. No two pending challenges
ask for the same action on the same execution, and a challenge is consumed only while the execution
is what it binds, by its operator and before it expires.
-/

namespace DrawingMachine

/-- A pending challenge is undecided. -/
theorem MachineApprovalChallenge.undecided_eq (c : MachineApprovalChallenge)
    (h : c.val.status = .pending) :
  c.val.undecided = c.val
  := by
  have hdecision : c.val.checkDecision = .ok () := by
    have hchecked := c.property
    simp only [MachineApprovalChallenge.Fields.postInit, Except.bind_eq_ok_iff,
      Except.exists_unit_iff] at hchecked
    obtain ⟨-, -, _, -, -, -, -, -, -, -, -, hdecision⟩ := hchecked
    exact hdecision
  rw [MachineApprovalChallenge.Fields.checkDecision, h] at hdecision
  simp only [rejectIf_eq_ok_iff, not_or, not_not, ne_eq] at hdecision
  obtain ⟨hchanged, hconsumer⟩ := hdecision
  unfold MachineApprovalChallenge.Fields.undecided
  rw [← h, ← hchanged, ← hconsumer]

/-- A consumed challenge names its operator, and was decided before it expired. -/
theorem MachineApprovalChallenge.consumed_by_operator (c : MachineApprovalChallenge)
    (h : c.val.status = .consumed) :
  ∃ changed consumer, c.val.statusChangedAt = some changed ∧ c.val.consumer = some consumer ∧
    consumer.stablePrincipal = c.val.operatorPrincipal ∧ c.val.issuedAt ≤ changed ∧
    changed < c.val.expiresAt
  := by
  have hchecked := c.property
  simp only [MachineApprovalChallenge.Fields.postInit, Except.bind_eq_ok_iff,
    Except.exists_unit_iff] at hchecked
  obtain ⟨-, -, _, -, -, -, -, -, -, -, hissued, hdecision⟩ := hchecked
  rw [MachineApprovalChallenge.Fields.checkDecision, h] at hdecision
  cases hchanged : c.val.statusChangedAt with
  | none => simp [hchanged] at hdecision
  | some changed =>
      cases hconsumer : c.val.consumer with
      | none => simp [hchanged, hconsumer] at hdecision
      | some consumer =>
          simp only [hchanged, hconsumer, Except.unit_bind_eq_ok_iff, rejectIf_eq_ok_iff,
            not_not, ne_eq] at hdecision
          rw [hchanged] at hissued
          simp only [checkSome, rejectIf_eq_ok_iff, not_lt] at hissued
          refine ⟨changed, consumer, rfl, rfl, hdecision.1, hissued, ?_⟩
          exact Int.not_le.mp hdecision.2

/-! ### Changes of the challenges -/

/-- The table of the challenges. -/
abbrev Challenges := Table String MachineApprovalChallenge.Fields.challengeId

namespace Challenges

/-- A pending row becomes a decided one, and keeps everything else. -/
structure Decision (r r' : MachineApprovalChallenge.Fields) : Prop where
  pending : r.status = .pending
  decided : r'.status ≠ .pending
  undecided : r'.undecided = r.undecided

/-- A decided row keeps its identifier. -/
theorem Decision.challengeId {r r' : MachineApprovalChallenge.Fields} (h : Decision r r') :
  r'.challengeId = r.challengeId
  := by
  have hid := congrArg MachineApprovalChallenge.Fields.challengeId h.undecided
  exact hid

/-- How one call changes the challenges: it decides some of the pending ones, and may then issue
one that is the only pending one for its action. -/
inductive Change : Challenges → List MachineApprovalChallenge.Fields →
    List MachineApprovalChallenge.Fields → Challenges → Prop
  | decide {t : Challenges} {decided : List MachineApprovalChallenge.Fields}
      (f : MachineApprovalChallenge.Fields → MachineApprovalChallenge.Fields)
      (hkey : ∀ r, (f r).challengeId = r.challengeId)
      (h : ∀ r ∈ t, f r = r ∨ Decision r (f r))
      (hnodup : (decided.map MachineApprovalChallenge.Fields.challengeId).Nodup)
      (hdecided : ∀ r', r' ∈ decided ↔ ∃ r ∈ t, f r ≠ r ∧ f r = r') :
      Change t decided [] (t.update f hkey)
  | issue {t t₁ t' : Challenges} {decided : List MachineApprovalChallenge.Fields}
      (h : Change t decided [] t₁) (c : MachineApprovalChallenge.Fields)
      (hpending : c.status = .pending) (hundecided : c.undecided = c)
      (halone : ∀ r ∈ t₁, r.status = .pending →
        ¬ (r.binding.val.executionId = c.binding.val.executionId ∧
          r.binding.val.action = c.binding.val.action))
      (htable : t₁.insert? c = some t') : Change t decided [c] t'

/-- Nothing need change. -/
theorem Change.same (t : Challenges) :
  Change t [] [] t
  := by
  have hid : t.update id (fun _ => rfl) = t := by
    cases t
    simp [Table.update]
  have h : Change t [] [] (t.update id fun _ => rfl) := by
    apply Change.decide
    · intro r _
      exact .inl rfl
    · apply List.nodup_nil
    · simp
  rw [hid] at h
  exact h

/-- A stored challenge is decided. -/
theorem Change.set {t : Challenges} {r r' : MachineApprovalChallenge.Fields} (hr : r ∈ t)
    (h : Decision r r') :
  Change t [r'] [] (t.set r')
  := by
  have hne : r' ≠ r := by
    rintro rfl
    exact h.decided h.pending
  apply Change.decide
  · intro a ha
    split
    · next hkey =>
        right
        rw [h.challengeId] at hkey
        rw [Table.eq_of_key_eq ha hr hkey]
        exact h
    · exact .inl rfl
  · apply List.nodup_singleton
  · intro a
    constructor
    · intro ha
      obtain rfl := List.mem_singleton.mp ha
      refine ⟨r, hr, ?_, ?_⟩
      · rw [if_pos h.challengeId.symm]
        exact hne
      · rw [if_pos h.challengeId.symm]
    · rintro ⟨b, hb, hchanged, rfl⟩
      by_cases hkey : b.challengeId = r'.challengeId
      · rw [if_pos hkey]
        apply List.mem_singleton_self
      · rw [if_neg hkey] at hchanged
        exact absurd rfl hchanged

/-- The stored challenges are, decisions apart, those that were issued. -/
theorem Change.undecided {t t' : Challenges}
    {decided issued : List MachineApprovalChallenge.Fields} (h : Change t decided issued t') :
  t'.rows.map MachineApprovalChallenge.Fields.undecided =
    t.rows.map MachineApprovalChallenge.Fields.undecided ++ issued
  := by
  induction h with
  | @decide decided f hkey h hnodup hdecided =>
      rw [List.append_nil, Table.update, List.map_map]
      apply List.map_congr_left
      intro r hr
      rcases h r hr with hsame | hdecision
      · rw [Function.comp_apply, hsame]
      · exact hdecision.undecided
  | issue h c hpending hundecided halone htable ih =>
      rw [(Table.insert?_eq_some_iff.mp htable).2, List.map_append, ih, List.append_nil,
        List.map_singleton, hundecided]

/-- The decisions that were taken are those that are stored, and the pending challenges ask for
different things. -/
structure Settled (decided : List MachineApprovalChallenge.Fields) (t : Challenges) : Prop where
  nodup : (decided.map MachineApprovalChallenge.Fields.challengeId).Nodup
  mem_iff : ∀ r, r ∈ decided ↔ r ∈ t ∧ r.status ≠ .pending
  alone : ∀ r ∈ t, ∀ r' ∈ t, r.status = .pending → r'.status = .pending →
    r.binding.val.executionId = r'.binding.val.executionId →
    r.binding.val.action = r'.binding.val.action → r = r'

/-- A table without rows. -/
theorem Settled.empty {t : Challenges} (h : t.rows = []) :
  Settled [] t
  := by
  have hnot : ∀ r, r ∉ t := by
    intro r hr
    rw [Table.mem_def, h] at hr
    cases hr
  constructor
  · apply List.nodup_nil
  · intro r
    simp [hnot r]
  · intro r hr
    exact absurd hr (hnot r)

/-- A change takes its decisions on pending challenges. -/
theorem Settled.change {t t' : Challenges}
    {decided decided' issued : List MachineApprovalChallenge.Fields} (hs : Settled decided t)
    (h : Change t decided' issued t') :
  Settled (decided ++ decided') t'
  := by
  induction h with
  | @decide decided' f hkey h hnodup hdecided =>
      have hkept : ∀ r ∈ t, r.status ≠ .pending → f r = r := by
        intro r hr hstatus
        apply (h r hr).resolve_right
        intro hdecision
        exact hstatus hdecision.pending
      have hof : ∀ r ∈ t, (f r).status = .pending → f r = r := by
        intro r hr hstatus
        apply (h r hr).resolve_right
        intro hdecision
        exact hdecision.decided hstatus
      constructor
      · rw [List.map_append, List.nodup_append]
        refine ⟨hs.nodup, hnodup, ?_⟩
        intro a ha b hb heq
        obtain ⟨r, hr, rfl⟩ := List.mem_map.mp ha
        obtain ⟨r', hr', rfl⟩ := List.mem_map.mp hb
        obtain ⟨hmem, hstatus⟩ := (hs.mem_iff r).mp hr
        obtain ⟨b, hb', hchanged, rfl⟩ := (hdecided r').mp hr'
        rw [hkey] at heq
        obtain rfl := Table.eq_of_key_eq hmem hb' heq
        exact hchanged (hkept r hmem hstatus)
      · intro r
        rw [List.mem_append, hs.mem_iff, hdecided, Table.mem_update]
        constructor
        · rintro (⟨hr, hstatus⟩ | ⟨a, ha, hchanged, rfl⟩)
          · exact ⟨⟨r, hr, hkept r hr hstatus⟩, hstatus⟩
          · exact ⟨⟨a, ha, rfl⟩, ((h a ha).resolve_left hchanged).decided⟩
        · rintro ⟨⟨a, ha, rfl⟩, hstatus⟩
          by_cases hsame : f a = a
          · left
            rw [hsame] at hstatus ⊢
            exact ⟨ha, hstatus⟩
          · right
            exact ⟨a, ha, hsame, rfl⟩
      · intro r hr r' hr' hpending hpending'
        obtain ⟨a, ha, rfl⟩ := Table.mem_update.mp hr
        obtain ⟨b, hb, rfl⟩ := Table.mem_update.mp hr'
        have hsame := hof a ha hpending
        have hsame' := hof b hb hpending'
        rw [hsame] at hpending ⊢
        rw [hsame'] at hpending' ⊢
        exact hs.alone a ha b hb hpending hpending'
  | issue h c hpending hundecided halone htable ih =>
      have hs₁ := ih
      have hmem : ∀ {r}, r ∈ _ ↔ r ∈ _ ∨ r = c := Table.mem_of_insert? htable
      constructor
      · exact hs₁.nodup
      · intro r
        rw [hs₁.mem_iff, hmem]
        constructor
        · rintro ⟨hr, hstatus⟩
          exact ⟨.inl hr, hstatus⟩
        · rintro ⟨hr | rfl, hstatus⟩
          · exact ⟨hr, hstatus⟩
          · exact absurd hpending hstatus
      · intro r hr r' hr' hstatus hstatus' hexecution haction
        rcases hmem.mp hr with hr | rfl
        · rcases hmem.mp hr' with hr' | rfl
          · exact hs₁.alone r hr r' hr' hstatus hstatus' hexecution haction
          · exact absurd ⟨hexecution, haction⟩ (halone r hr hstatus)
        · rcases hmem.mp hr' with hr' | rfl
          · exact absurd ⟨hexecution.symm, haction.symm⟩ (halone r' hr' hstatus')
          · rfl

end Challenges

/-! ### Calls change the challenges -/

namespace Database

open Challenges

variable {db db' : Database}

/-- The challenge that a call issues. -/
def issued : Call → List MachineApprovalChallenge.Fields
  | .issueChallenge c _ _ => [c.val]
  | _ => []

/-- The decisions that a call takes, as they are stored: it may record one, replace a challenge in
favour of another, or expire the pending challenges of an execution. -/
def decisions (db : Database) : Call → List MachineApprovalChallenge.Fields
  | .issueChallenge _ (some d) _ => [d.result.val]
  | .decideChallenge d => [d.result.val]
  | .reconcileRestart _ e event _ _ =>
      (db.challenges.rows.filter fun r =>
        r.binding.val.executionId = e.val.executionId ∧ r.status = .pending).map fun r =>
          { r with status := .expired, statusChangedAt := some event.val.occurredAt }
  | _ => []

/-- The expiry of the pending challenges of an execution. -/
theorem change_expireChallenges (db : Database) (executionId : String) (changedAt : Timestamp) :
  Change db.challenges
    ((db.challenges.rows.filter fun r =>
      r.binding.val.executionId = executionId ∧ r.status = .pending).map fun r =>
        { r with status := .expired, statusChangedAt := some changedAt })
    [] (db.expireChallenges executionId changedAt).challenges
  := by
  apply Change.decide
  · intro r
    split <;> rfl
  · intro r _
    split
    · next hopen =>
        right
        exact ⟨hopen.2, by simp, rfl⟩
    · exact .inl rfl
  · rw [List.map_map]
    apply List.Nodup.sublist _ db.challenges.nodup
    apply List.Sublist.map
    apply List.filter_sublist
  · intro r'
    simp only [List.mem_map, List.mem_filter, decide_eq_true_eq]
    constructor
    · rintro ⟨r, ⟨hr, hopen⟩, rfl⟩
      refine ⟨r, hr, ?_, ?_⟩
      · rw [if_pos hopen]
        intro heq
        have hstatus := congrArg MachineApprovalChallenge.Fields.status heq
        rw [hopen.2] at hstatus
        cases hstatus
      · rw [if_pos hopen]
    · rintro ⟨r, hr, hchanged, rfl⟩
      by_cases hopen : r.binding.val.executionId = executionId ∧ r.status = .pending
      · rw [if_pos hopen]
        exact ⟨r, ⟨hr, hopen⟩, rfl⟩
      · rw [if_neg hopen] at hchanged
        exact absurd rfl hchanged

/-- A recorded decision on a stored challenge. -/
theorem change_decision {d : MachineApprovalDecision}
    (h : db.challenges.get? d.result.val.challengeId = some d.expected.val) :
  Change db.challenges [d.result.val] [] (db.challenges.set d.result.val)
  := by
  apply Change.set (Table.get?_eq_some_iff.mp h).1
  constructor
  · exact d.expected_pending
  · exact d.result_decided
  · rw [d.same_authority, d.expected.undecided_eq d.expected_pending]

/-- A call takes its decisions, issues its challenge, and changes the challenges in no other
way. -/
theorem challenges_of_call {c : Call} (h : c.apply db = .ok db') :
  Change db.challenges (decisions db c) (issued c) db'.challenges
  := by
  cases c with
  | createExecution e event audit =>
      obtain ⟨-, -, -, -, -, -, -, hframe⟩ := of_createExecution h
      rw [hframe]
      apply Change.same
  | recordOpenedSession n e session event audit =>
      obtain ⟨-, -, -, -, -, hframe⟩ := of_recordOpenedSession h
      rw [hframe]
      apply Change.same
  | transitionExecution n e event audit =>
      obtain ⟨-, -, -, hframe⟩ := of_transitionExecution h
      rw [hframe]
      apply Change.same
  | commitMachineOutcome n e o event audit session =>
      obtain ⟨-, -, -, -, hframe⟩ := of_commitMachineOutcome h
      rw [hframe]
      apply Change.same
  | reconcileRestart n e event audit outcome =>
      obtain ⟨-, hchallenges, -, -⟩ := of_reconcileRestart h
      rw [hchallenges]
      apply change_expireChallenges
  | releaseOwner n e event audit =>
      simp only [Call.apply, releaseOwner, Except.unit_bind_eq_ok_iff] at h
      obtain ⟨-, -, -, hframe⟩ := of_transitionExecution h.2
      rw [hframe]
      apply Change.same
  | transferOwner n p s pe se pa sa =>
      obtain ⟨-, -, -, -, -, -, -, -, -, -, -, -, -, -, hframe⟩ := of_transferOwner h
      rw [hframe]
      apply Change.same
  | issueChallenge c replacement recorded =>
      obtain ⟨hpending, db₁, db₂, hreplaced, hinsert, hrecorded⟩ := of_issueChallenge h
      obtain ⟨-, halone, htable, -⟩ := of_insertChallenge hinsert
      have hchallenges : db'.challenges = db₂.challenges := by rw [hrecorded]
      rw [hchallenges]
      have hchange : Change db.challenges (decisions db (.issueChallenge c replacement recorded))
          [] db₁.challenges := by
        obtain ⟨rfl, rfl⟩ | ⟨d, rfl, hget, rfl⟩ := hreplaced
        · apply Change.same
        · apply change_decision hget
      exact hchange.issue c.val hpending (c.undecided_eq hpending) (halone hpending) htable
  | decideChallenge d =>
      obtain ⟨-, hget, rfl⟩ := of_decideChallenge h
      apply change_decision hget
  | reserveRequest r =>
      simp only [Call.apply, Except.bind_eq_ok_iff, Except.pure_eq_ok_iff] at h
      obtain ⟨⟨found, db₁⟩, hreserved, rfl⟩ := h
      obtain ⟨-, ⟨-, -, -, -, rfl⟩ | ⟨-, -, -, hframe⟩⟩ := of_reserveRequest hreserved
      · apply Change.same
      · rw [hframe]
        apply Change.same
  | completeRequest key response completedAt =>
      simp only [Call.apply, Except.bind_eq_ok_iff, Except.pure_eq_ok_iff] at h
      obtain ⟨⟨completed, db₁⟩, hcompleted, rfl⟩ := h
      obtain ⟨r, -, -, -, -, rfl, rfl⟩ := of_completeRequest hcompleted
      apply Change.same
  | claimRequest c claimedAt =>
      simp only [Call.apply, Except.bind_eq_ok_iff, Except.pure_eq_ok_iff] at h
      obtain ⟨⟨claimed, db₁⟩, hclaimed, rfl⟩ := h
      obtain ⟨r, -, -, -, -, -, -, rfl, rfl⟩ := of_claimRequest hclaimed
      apply Change.same
  | appendProgress progressId p =>
      rw [(of_appendProgress h).2]
      apply Change.same
  | recordLifecycleEvent e event audit =>
      rw [of_recordLifecycleEvent h]
      apply Change.same

/-- A challenge is replaced by a superseded or an expired one. -/
theorem status_of_replaceChallenge {d : MachineApprovalDecision}
    (h : db.replaceChallenge (some d) = .ok db') :
  d.result.val.status ≠ .consumed
  := by
  simp only [replaceChallenge, Except.unit_bind_eq_ok_iff, rejectIf_eq_ok_iff, not_not] at h
  intro hconsumed
  rw [hconsumed] at h
  simp at h

/-- A call consumes only a valid challenge that binds the current execution. -/
theorem consumed_of_call {c : Call} (h : c.apply db = .ok db')
    {r : MachineApprovalChallenge.Fields} (hr : r ∈ decisions db c)
    (hconsumed : r.status = .consumed) :
  r.postInit = .ok () ∧ db.bindsCurrent r.binding.val = true
  := by
  cases c with
  | issueChallenge c replacement recorded =>
      cases replacement with
      | none => cases hr
      | some d =>
          obtain rfl := List.mem_singleton.mp hr
          simp only [Call.apply, issueChallenge, Except.bind_eq_ok_iff, Except.exists_unit_iff] at h
          obtain ⟨-, -, db₁, hreplaced, -⟩ := h
          exact absurd hconsumed (status_of_replaceChallenge hreplaced)
  | decideChallenge d =>
      obtain rfl := List.mem_singleton.mp hr
      obtain ⟨hcurrent, -, -⟩ := of_decideChallenge h
      have hbinding := congrArg MachineApprovalChallenge.Fields.binding d.same_authority
      rw [show d.result.val.binding = d.expected.val.binding from hbinding]
      exact ⟨d.result.property, hcurrent⟩
  | reconcileRestart n e event audit outcome =>
      obtain ⟨a, -, rfl⟩ := List.mem_map.mp hr
      cases hconsumed
  | _ => cases hr

/-! ### Histories -/

/-- The calls of a list, each with the database that it finds. -/
def callsFrom : List Call → Database → List (Database × Call)
  | [], _ => []
  | c :: calls, db =>
      (db, c) :: match c.apply db with
        | .ok db' => callsFrom calls db'
        | .error _ => []

end Database

/-- The calls of a transaction that are committed, each with the database that it finds. -/
def Transaction.committedFrom (tx : Transaction) (db : Database) : List (Database × Call) :=
  match tx.calls.foldlM Call.apply db with
  | .error _ => []
  | .ok db' => if tx.commit && db'.foreignKeysHold then Database.callsFrom tx.calls db else []

namespace Database

open Challenges

variable {db db' : Database}

/-- A run of committed and rolled-back transactions with the calls that were committed; in
between, other writers may change anything but the challenges. -/
inductive ApprovalHistory (db₀ : Database) : List (Database × Call) → Database → Prop
  | start : ApprovalHistory db₀ [] db₀
  | transaction {log : List (Database × Call)} {db : Database} (tx : Transaction)
      (h : ApprovalHistory db₀ log db) :
      ApprovalHistory db₀ (log ++ tx.committedFrom db) (tx.run db)
  | other {log : List (Database × Call)} {db db' : Database} (h : ApprovalHistory db₀ log db)
      (hchallenges : db'.challenges = db.challenges) : ApprovalHistory db₀ log db'

/-- The decisions that were taken, in order. -/
def allDecisions (log : List (Database × Call)) : List MachineApprovalChallenge.Fields :=
  log.flatMap fun entry => decisions entry.1 entry.2

/-- The challenges that were issued, in order. -/
def allIssued (log : List (Database × Call)) : List MachineApprovalChallenge.Fields :=
  log.flatMap fun entry => issued entry.2

/-- What the challenges are after the calls of a log. -/
structure Decided (log : List (Database × Call)) (t : Challenges) : Prop where
  settled : Settled (allDecisions log) t
  issued : t.rows.map MachineApprovalChallenge.Fields.undecided = allIssued log
  consumed : ∀ entry ∈ log, ∀ r ∈ decisions entry.1 entry.2, r.status = .consumed →
    r.postInit = .ok () ∧ entry.1.bindsCurrent r.binding.val = true

/-- One more call. -/
theorem Decided.call {log : List (Database × Call)} (hd : Decided log db.challenges) {c : Call}
    (h : c.apply db = .ok db') :
  Decided (log ++ [(db, c)]) db'.challenges
  := by
  have hchange := challenges_of_call h
  constructor
  · rw [allDecisions, List.flatMap_append, List.flatMap_singleton]
    exact hd.settled.change hchange
  · rw [hchange.undecided, hd.issued, allIssued, allIssued, List.flatMap_append,
      List.flatMap_singleton]
  · intro entry hentry
    rcases List.mem_append.mp hentry with hentry | hentry
    · exact hd.consumed entry hentry
    · obtain rfl := List.mem_singleton.mp hentry
      intro r hr
      exact consumed_of_call h hr

/-- The calls of a transaction. -/
theorem Decided.calls {calls : List Call} {log : List (Database × Call)}
    (hd : Decided log db.challenges) (h : calls.foldlM Call.apply db = .ok db') :
  Decided (log ++ callsFrom calls db) db'.challenges
  := by
  induction calls generalizing log db with
  | nil =>
      cases h
      rw [callsFrom, List.append_nil]
      exact hd
  | cons c calls ih =>
      rw [List.foldlM_cons, Except.bind_eq_ok_iff] at h
      obtain ⟨db₁, hc, hrest⟩ := h
      have happend : log ++ callsFrom (c :: calls) db =
          log ++ [(db, c)] ++ callsFrom calls db₁ := by
        simp [callsFrom, hc]
      rw [happend]
      exact ih (hd.call hc) hrest

/-- Every history settles the challenges. -/
theorem ApprovalHistory.decided {db₀ : Database} {log : List (Database × Call)}
    (h : ApprovalHistory db₀ log db) (hempty : db₀.challenges.rows = []) :
  Decided log db.challenges
  := by
  induction h with
  | start =>
      constructor
      · exact Settled.empty hempty
      · rw [hempty]
        rfl
      · intro entry hentry
        cases hentry
  | other _ hchallenges ih =>
      rw [hchallenges]
      exact ih
  | @transaction log db tx _ ih =>
      unfold Transaction.committedFrom Transaction.run
      cases hcalls : tx.calls.foldlM Call.apply db with
      | error error =>
          rw [List.append_nil]
          exact ih
      | ok db' =>
          by_cases hcommit : (tx.commit && db'.foreignKeysHold) = true
          · simp only [if_pos hcommit]
            exact ih.calls hcalls
          · simp only [if_neg hcommit, List.append_nil]
            exact ih

/-- **Each challenge is decided at most once.** Along every history of committed and rolled-back
transactions that begins without challenges, the stored challenges are, their decisions apart,
those that were issued, in this order. No challenge is decided twice, and the decided rows are
those of the decisions that were taken. Two pending challenges never ask for the same action on
the same execution. A challenge is consumed only by the operator it names, before it expires, and
while the execution is at the revision and in the phase that it binds. -/
theorem approvals_decided_once {db₀ : Database} {log : List (Database × Call)}
    (h : ApprovalHistory db₀ log db) (hempty : db₀.challenges.rows = []) :
  db.challenges.rows.map MachineApprovalChallenge.Fields.undecided = allIssued log ∧
    ((allDecisions log).map MachineApprovalChallenge.Fields.challengeId).Nodup ∧
    (∀ r, r ∈ allDecisions log ↔ r ∈ db.challenges ∧ r.status ≠ .pending) ∧
    (∀ r ∈ db.challenges, ∀ r' ∈ db.challenges, r.status = .pending → r'.status = .pending →
      r.binding.val.executionId = r'.binding.val.executionId →
      r.binding.val.action = r'.binding.val.action → r = r') ∧
    ∀ entry ∈ log, ∀ r ∈ decisions entry.1 entry.2, r.status = .consumed →
      entry.1.bindsCurrent r.binding.val = true ∧
      ∃ changed consumer, r.statusChangedAt = some changed ∧ r.consumer = some consumer ∧
        consumer.stablePrincipal = r.operatorPrincipal ∧ r.issuedAt ≤ changed ∧
        changed < r.expiresAt
  := by
  have hd := h.decided hempty
  refine ⟨hd.issued, hd.settled.nodup, hd.settled.mem_iff, hd.settled.alone, ?_⟩
  intro entry hentry r hr hconsumed
  obtain ⟨hvalid, hcurrent⟩ := hd.consumed entry hentry r hr hconsumed
  exact ⟨hcurrent, MachineApprovalChallenge.consumed_by_operator ⟨r, hvalid⟩ hconsumed⟩

/-! ### A challenge that is consumed -/

/-- The binding of the samples: to home the machine after its session was opened. -/
def homeBinding : MachineApprovalBinding :=
  ⟨{ executionId := "a"
     executionRevision := 1
     action := .home
     recoveryDisposition := none
     requiredPriorPhase := .awaitingHomeApproval
     serviceEpoch := "service"
     machineSessionEpoch := "session-a"
     jobId := "job"
     readyRevision := 1
     applicationDigest := sampleDigest
     machineDigest := sampleDigest
     providerDigest := sampleDigest
     gcodeSha256 := sampleDigest }, by decide +kernel⟩

/-- The evidence of the samples. -/
def homeEvidence : MachineApprovalEvidenceV1 :=
  ⟨⟨1, .home, .awaitingHomeApproval, some sampleSession⟩, by decide +kernel⟩

/-- The fields of the challenge of the samples. -/
def homeFields : MachineApprovalChallenge.Fields where
  schemaVersion := 1
  challengeId := "01234567-89ab-4def-8123-456789abcdef"
  binding := homeBinding
  requester := ⟨1, 1, 1, by decide⟩
  operatorPrincipal := ⟨2, 2⟩
  purpose := .home
  evidence := homeEvidence
  issuedAt := 1
  issuedMonotonic := 0
  monotonicDeadline := 5
  expiresAt := 5000001
  status := .pending
  statusChangedAt := none
  consumer := none

/-- The challenge of the samples. -/
def homeChallenge : MachineApprovalChallenge := ⟨homeFields, by decide +kernel⟩

/-- The operator consumes the challenge of the samples. -/
def homeDecision : MachineApprovalDecision where
  expected := homeChallenge
  result :=
    ⟨{ homeFields with
       status := .consumed
       statusChangedAt := some 2
       consumer := some ⟨2, 2, 7, by decide⟩ }, by decide +kernel⟩
  expected_pending := rfl
  result_decided := by decide
  same_authority := rfl

/-- A session is opened, and its challenge is issued. -/
def issueHome : Transaction where
  calls :=
    [ .createExecution (stage 0) (eventAt 0 (stage 0)) (auditAt 0 (stage 0)),
      .recordOpenedSession 0 (stage 1) sampleSession (eventAt 1 (stage 1)) (auditAt 1 (stage 1)),
      .issueChallenge homeChallenge none none ]
  commit := true

/-- The challenge is consumed. -/
def consumeHome : Transaction where
  calls := [.decideChallenge homeDecision]
  commit := true

/-- The challenge of the samples is consumed once although the decision is made twice. -/
theorem approvals_decided_once_sample :
  ∃ log db, ApprovalHistory sampleDatabase log db ∧ allDecisions log = [homeDecision.result.val] ∧
    db.challenges.rows.map MachineApprovalChallenge.Fields.undecided = allIssued log
  := by
  have hstart : ApprovalHistory sampleDatabase [] sampleDatabase := ApprovalHistory.start
  have hconsumed := ((hstart.transaction issueHome).transaction consumeHome).transaction consumeHome
  obtain ⟨hissued, -⟩ := approvals_decided_once hconsumed rfl
  refine ⟨_, _, hconsumed, ?_, hissued⟩
  decide +kernel

end Database

end DrawingMachine
