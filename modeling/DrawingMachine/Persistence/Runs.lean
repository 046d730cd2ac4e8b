import Mathlib.Algebra.GroupWithZero.Nat
import DrawingMachine.Persistence.Ownership

/-!
# Runs of transactions

A transaction is a list of calls and whether it is committed. It is rolled back when a
call fails, when a deferred foreign key does not hold at its end, or when its caller rolls
it back. In a run of transactions, other writers may change anything but the executions in
between.
-/

namespace DrawingMachine

/-- A call that writes the database. -/
inductive Call where
  | createExecution (e : MachineExecution) (event : MachineEvent) (audit : MachineAuditPayload)
  | recordOpenedSession (expectedRevision : Nat) (e : MachineExecution)
      (session : MachineSessionSnapshot) (event : MachineEvent) (audit : MachineAuditPayload)
  | transitionExecution (expectedRevision : Nat) (e : MachineExecution) (event : MachineEvent)
      (audit : MachineAuditPayload)
  | commitMachineOutcome (expectedRevision : Nat) (e : MachineExecution)
      (o : Database.JobOutcome) (event : MachineEvent) (audit : MachineAuditPayload)
      (session : Option MachineSessionSnapshot)
  | reconcileRestart (expectedRevision : Nat) (e : MachineExecution) (event : MachineEvent)
      (audit : MachineAuditPayload) (outcome : Option Database.JobOutcome)
  | releaseOwner (expectedRevision : Nat) (e : MachineExecution) (event : MachineEvent)
      (audit : MachineAuditPayload)
  | transferOwner (expectedRevision : Nat) (predecessor successor : MachineExecution)
      (predecessorEvent successorEvent : MachineEvent)
      (predecessorAudit successorAudit : MachineAuditPayload)
  | issueChallenge (c : MachineApprovalChallenge) (replacement : Option MachineApprovalDecision)
      (recorded : Option (MachineEvent × MachineAuditPayload))
  | decideChallenge (d : MachineApprovalDecision)
  | reserveRequest (r : MachineRequestRecord)
  | completeRequest (key : MachineRequestKey) (response : MachineResponse)
      (completedAt : Timestamp)
  | claimRequest (c : MachineAdmissionCapability) (claimedAt : Timestamp)
  | appendProgress (progressId : String) (p : MachineProgress)
  | recordLifecycleEvent (e : MachineExecution) (event : MachineEvent)
      (audit : MachineAuditPayload)

namespace Call

/-- Make a call. -/
def apply (db : Database) : Call → Except ErrorPayload Database
  | .createExecution e event audit => db.createExecution e event audit
  | .recordOpenedSession n e session event audit =>
      db.recordOpenedSession n e session event audit
  | .transitionExecution n e event audit => db.transitionExecution n e event audit
  | .commitMachineOutcome n e o event audit session =>
      db.commitMachineOutcome n e o event audit session
  | .reconcileRestart n e event audit outcome => db.reconcileRestart n e event audit outcome
  | .releaseOwner n e event audit => db.releaseOwner n e event audit
  | .transferOwner n predecessor successor predecessorEvent successorEvent predecessorAudit
      successorAudit =>
      db.transferOwner n predecessor successor predecessorEvent successorEvent
        predecessorAudit successorAudit
  | .issueChallenge c replacement recorded => db.issueChallenge c replacement recorded
  | .decideChallenge d => db.decideChallenge d
  | .reserveRequest r => do
      let reserved ← db.reserveRequest r
      return reserved.2
  | .completeRequest key response completedAt => do
      let completed ← db.completeRequest key response completedAt
      return completed.2
  | .claimRequest c claimedAt => do
      let claimed ← db.claimRequest c claimedAt
      return claimed.2
  | .appendProgress progressId p => db.appendProgress progressId p
  | .recordLifecycleEvent e event audit => db.recordLifecycleEvent e event audit

/-- The call may write executions. -/
def WritesExecutions : Call → Prop
  | .createExecution _ _ _ => True
  | .recordOpenedSession _ _ _ _ _ => True
  | .transitionExecution _ _ _ _ => True
  | .commitMachineOutcome _ _ _ _ _ _ => True
  | .reconcileRestart _ _ _ _ _ => True
  | .releaseOwner _ _ _ _ => True
  | .transferOwner _ _ _ _ _ _ _ => True
  | _ => False

/-- The call does not record a transfer of the machine, unless it is the one that also
records the successor. -/
def TransfersWhole : Call → Prop
  | .createExecution _ _ _ => True
  | .recordOpenedSession _ e _ _ _ => e.val.retirementDisposition ≠ some .transferred
  | .transitionExecution _ e _ _ => e.val.retirementDisposition ≠ some .transferred
  | .commitMachineOutcome _ e _ _ _ _ => e.val.retirementDisposition ≠ some .transferred
  | .reconcileRestart _ e _ _ _ => e.val.retirementDisposition ≠ some .transferred
  | _ => True

end Call

/-- A list of calls, and whether its caller commits it. -/
structure Transaction where
  calls : List Call
  commit : Bool

/-- Run a transaction. -/
def Transaction.run (tx : Transaction) (db : Database) : Database :=
  match tx.calls.foldlM Call.apply db with
  | .error _ => db
  | .ok db' => if tx.commit && db'.foreignKeysHold then db' else db

/-- The calls of a transaction that are committed: all of them or none. -/
def Transaction.committed (tx : Transaction) (db : Database) : List Call :=
  match tx.calls.foldlM Call.apply db with
  | .error _ => []
  | .ok db' => if tx.commit && db'.foreignKeysHold then tx.calls else []

namespace Database

/-- One step of a run whose calls satisfy `allowed`. -/
inductive Step (allowed : Call → Prop) : Database → Database → Prop
  | transaction {db : Database} (tx : Transaction) (h : ∀ c ∈ tx.calls, allowed c) :
      Step allowed db (tx.run db)
  | other {db db' : Database} (h : db'.executions = db.executions) : Step allowed db db'

/-- A run of steps. -/
abbrev Run (allowed : Call → Prop) : Database → Database → Prop :=
  Relation.ReflTransGen (Step allowed)

/-- A database that a run reaches from one without executions. -/
def Reachable (allowed : Call → Prop) (db : Database) : Prop :=
  ∃ db₀ : Database, db₀.executions.rows = [] ∧ Run allowed db₀ db

/-- Every call is allowed. -/
def anyCall : Call → Prop := fun _ => True

open Executions

variable {db db' : Database}

/-! ### Calls change the executions -/

/-- The changes an operation makes to the executions. -/
abbrev Changes (db db' : Database) : Prop :=
  Relation.ReflTransGen Change db.executions db'.executions

/-- A revision is a change. -/
theorem change_of_transitioned {prior : ExecutionRow} {e : MachineExecution}
    (h : Transitioned db prior e db') :
  Change db.executions db'.executions
  := by
  obtain ⟨outcome, -, htable⟩ := h.executions
  apply Change.revise prior e outcome h.mem h.progresses h.owner htable

/-- An insertion of a fresh execution is a change. -/
theorem change_of_inserted {e : MachineExecution} (h : Inserted db e db')
    (hphase : e.val.phase = .preparingSession) :
  Change db.executions db'.executions
  := by
  have hactive : (ExecutionRow.mk e none).Active := by
    apply active_of_retirement
    apply MachineExecution.retirement_eq_none
    · rw [hphase]
      decide
    · rw [hphase]
      decide
  apply Change.insert e hphase (h.owner hactive) _ h.table
  intro id hid
  have hauth := h.authority
  simp only [checkInsertAuthority, hid, Except.unit_bind_eq_ok_iff, rejectIf_eq_ok_iff,
    not_not] at hauth
  obtain ⟨p, hp, hfrozen⟩ := (Option.any_eq_true _ _).mp hauth.2
  obtain ⟨row, hrow, rfl, hrowid⟩ := getExecution_eq_some_iff.mp hp
  use row, hrow, hrowid
  apply of_decide_eq_true hfrozen

/-- A transfer revises the predecessor and inserts the successor. -/
theorem changes_of_transferOwner {n : Nat} {e successor : MachineExecution}
    {event successorEvent : MachineEvent} {audit successorAudit : MachineAuditPayload}
    (h : db.transferOwner n e successor event successorEvent audit successorAudit = .ok db') :
  ∃ t, Change db.executions t ∧ Change t db'.executions
  := by
  obtain ⟨prior, db₁, db₂, -, htrans, -, -, hins, -, hphase, -, -, -, hexec, -⟩ :=
    of_transferOwner h
  use db₁.executions, change_of_transitioned htrans
  rw [hexec]
  apply change_of_inserted hins hphase

/-- A call that does not write executions leaves them as they are. -/
theorem executions_of_call {c : Call} (h : c.apply db = .ok db') (hc : ¬ c.WritesExecutions) :
  db'.executions = db.executions
  := by
  cases c with
  | issueChallenge c replacement recorded =>
      obtain ⟨-, db₁, db₂, hreplaced, hinsert, hrecorded⟩ := of_issueChallenge h
      obtain ⟨-, -, -, hframe⟩ := of_insertChallenge hinsert
      rw [hrecorded, hframe]
      obtain ⟨-, rfl⟩ | ⟨d, -, -, rfl⟩ := hreplaced
      · rfl
      · rfl
  | decideChallenge d =>
      obtain ⟨-, -, rfl⟩ := of_decideChallenge h
      rfl
  | reserveRequest r =>
      simp only [Call.apply, Except.bind_eq_ok_iff, Except.pure_eq_ok_iff] at h
      obtain ⟨⟨found, db₁⟩, hreserved, rfl⟩ := h
      obtain ⟨-, ⟨-, -, -, -, rfl⟩ | ⟨-, -, -, hframe⟩⟩ := of_reserveRequest hreserved
      · rfl
      · rw [hframe]
  | completeRequest key response completedAt =>
      simp only [Call.apply, Except.bind_eq_ok_iff, Except.pure_eq_ok_iff] at h
      obtain ⟨⟨completed, db₁⟩, hcompleted, rfl⟩ := h
      obtain ⟨r, -, -, -, -, -, rfl⟩ := of_completeRequest hcompleted
      rfl
  | claimRequest c claimedAt =>
      simp only [Call.apply, Except.bind_eq_ok_iff, Except.pure_eq_ok_iff] at h
      obtain ⟨⟨claimed, db₁⟩, hclaimed, rfl⟩ := h
      obtain ⟨r, -, -, -, -, -, -, -, rfl⟩ := of_claimRequest hclaimed
      rfl
  | appendProgress progressId p => rw [(of_appendProgress h).2]
  | recordLifecycleEvent e event audit => rw [of_recordLifecycleEvent h]
  | _ => exact absurd trivial hc

/-- The executions after a call that is not a transfer: at most one change. -/
theorem change_of_call {c : Call} (h : c.apply db = .ok db')
    (hc : ∀ n p s pe se pa sa, c ≠ .transferOwner n p s pe se pa sa) :
  db'.executions = db.executions ∨ Change db.executions db'.executions
  := by
  cases c with
  | createExecution e event audit =>
      obtain ⟨db₁, hins, hexec, -, hphase, -⟩ := of_createExecution h
      right
      rw [hexec]
      apply change_of_inserted hins hphase
  | recordOpenedSession n e session event audit =>
      obtain ⟨prior, -, htrans, -⟩ := of_recordOpenedSession h
      right
      apply change_of_transitioned htrans
  | transitionExecution n e event audit =>
      obtain ⟨prior, -, htrans, -⟩ := of_transitionExecution h
      right
      apply change_of_transitioned htrans
  | commitMachineOutcome n e o event audit session =>
      obtain ⟨prior, -, htrans, -⟩ := of_commitMachineOutcome h
      right
      apply change_of_transitioned htrans
  | reconcileRestart n e event audit outcome =>
      obtain ⟨-, -, -, hcases, -⟩ := of_reconcileRestart h
      obtain ⟨_, -, -, -, -, hexec, -⟩ | ⟨prior, -, htrans, -⟩ := hcases
      · left
        apply hexec
      · right
        apply change_of_transitioned htrans
  | releaseOwner n e event audit =>
      simp only [Call.apply, releaseOwner, Except.unit_bind_eq_ok_iff] at h
      obtain ⟨prior, -, htrans, -⟩ := of_transitionExecution h.2
      right
      apply change_of_transitioned htrans
  | transferOwner n p s pe se pa sa => exact absurd rfl (hc n p s pe se pa sa)
  | _ =>
      left
      apply executions_of_call h id

/-- A call changes the executions step by step. -/
theorem changes_of_call {c : Call} (h : c.apply db = .ok db') :
  Changes db db'
  := by
  by_cases hc : ∃ n p s pe se pa sa, c = .transferOwner n p s pe se pa sa
  · obtain ⟨n, p, s, pe, se, pa, sa, rfl⟩ := hc
    obtain ⟨t, hfirst, hsecond⟩ := changes_of_transferOwner h
    apply Relation.ReflTransGen.tail (.single hfirst) hsecond
  · have hc' : ∀ n p s pe se pa sa, c ≠ .transferOwner n p s pe se pa sa := by
      intro n p s pe se pa sa heq
      apply hc ⟨n, p, s, pe, se, pa, sa, heq⟩
    obtain hsame | hchange := change_of_call h hc'
    · rw [Changes, hsame]
    · apply Relation.ReflTransGen.single hchange

/-- What every call keeps, a transaction keeps. -/
theorem foldlM_apply {P : Database → Prop} {calls : List Call}
    (hcall : ∀ c ∈ calls, ∀ {a b : Database}, c.apply a = .ok b → P a → P b)
    (h : calls.foldlM Call.apply db = .ok db') (hdb : P db) :
  P db'
  := by
  induction calls generalizing db with
  | nil =>
      cases h
      apply hdb
  | cons c calls ih =>
      rw [List.foldlM_cons, Except.bind_eq_ok_iff] at h
      obtain ⟨a, hc, hrest⟩ := h
      apply ih (fun c hc => hcall c (List.mem_cons_of_mem _ hc)) hrest
      apply hcall c List.mem_cons_self hc hdb

/-- What every call keeps and only concerns the executions, a step of a run keeps. -/
theorem Step.keeps {allowed : Call → Prop} {P : Database → Prop}
    (hcall : ∀ c, allowed c → ∀ {a b : Database}, c.apply a = .ok b → P a → P b)
    (hother : ∀ {a b : Database}, b.executions = a.executions → P a → P b)
    (h : Step allowed db db') (hdb : P db) :
  P db'
  := by
  cases h with
  | transaction tx hallowed =>
      unfold Transaction.run
      split
      · apply hdb
      · rename_i db₁ hrun
        split
        · apply foldlM_apply (fun c hc => hcall c (hallowed c hc)) hrun hdb
        · apply hdb
  | other hexec => apply hother hexec hdb

/-- What every call keeps and only concerns the executions, a run keeps. -/
theorem Run.keeps {allowed : Call → Prop} {P : Database → Prop}
    (hcall : ∀ c, allowed c → ∀ {a b : Database}, c.apply a = .ok b → P a → P b)
    (hother : ∀ {a b : Database}, b.executions = a.executions → P a → P b)
    (h : Run allowed db db') (hdb : P db) :
  P db'
  := by
  induction h with
  | refl => apply hdb
  | tail _ hstep ih => apply hstep.keeps hcall hother ih

/-! ### The owner of the machine -/

/-- The machine has one owner at most in every database a run reaches. -/
theorem owned_of_reachable {allowed : Call → Prop} (h : Reachable allowed db) :
  Owned db.executions
  := by
  obtain ⟨db₀, hempty, hrun⟩ := h
  apply hrun.keeps (P := fun db => Owned db.executions)
  · intro c _ a b hc ha
    apply Owned.of_changes (changes_of_call hc) ha
  · intro a b hab ha
    rw [hab]
    apply ha
  · apply owned_empty _ hempty

/-- What remains of a retired execution after a run. -/
theorem keeps_of_run {allowed : Call → Prop} (h : Run allowed db db') {r : ExecutionRow}
    (hr : r ∈ db.executions) (hretired : r.execution.val.retirement ≠ none) :
  ∃ r' ∈ db'.executions, Keeps r r' ∧ r'.execution.val.retirement ≠ none
  := by
  apply h.keeps
    (P := fun db => ∃ r' ∈ db.executions, Keeps r r' ∧ r'.execution.val.retirement ≠ none)
  · rintro c _ a b hc ⟨r₁, hr₁, hkeeps₁, hretired₁⟩
    obtain ⟨r₂, hr₂, hkeeps₂, hretired₂⟩ := keeps_of_changes (changes_of_call hc) hr₁ hretired₁
    use r₂, hr₂, hkeeps₁.trans hkeeps₂
  · intro a b hab ha
    rw [hab]
    apply ha
  · use r, hr, Keeps.refl r

/-! ### Successors of transferred executions -/

/-- Every execution that transferred the machine has its successor in the table. -/
def TransfersCompleted (t : Executions) : Prop :=
  ∀ p ∈ t, ∀ id, TransferredTo p id →
    ∃ s ∈ t, s.executionId = id ∧ s.execution.val.predecessorExecutionId = some p.executionId

/-- The successor of an execution is still there after a change. -/
theorem successor_of_change {t t' : Executions} (h : Change t t') {id pid : String}
    (hs : ∃ s ∈ t, s.executionId = id ∧ s.execution.val.predecessorExecutionId = some pid) :
  ∃ s ∈ t', s.executionId = id ∧ s.execution.val.predecessorExecutionId = some pid
  := by
  obtain ⟨s, hs, hid, hpid⟩ := hs
  obtain hmem | ⟨s', hs', hprog⟩ := h.mem_or hs
  · use s, hmem
  · use s', hs'
    constructor
    · rw [ExecutionRow.executionId, hprog.executionId]
      apply hid
    · rw [hprog.predecessorExecutionId]
      apply hpid

/-- A change that records no transfer keeps that every transfer is completed. -/
theorem transfersCompleted_of_change {t t' : Executions} (h : Change t t')
    (hnew : ∀ p ∈ t', p ∈ t ∨ ∀ id, ¬ TransferredTo p id) (ht : TransfersCompleted t) :
  TransfersCompleted t'
  := by
  intro p hp id hid
  obtain hold | hnot := hnew p hp
  · apply successor_of_change h (ht p hold id hid)
  · apply absurd hid (hnot id)

/-- A row whose retirement is no transfer does not transfer the machine. -/
theorem not_transferredTo {row : ExecutionRow}
    (h : row.execution.val.retirementDisposition ≠ some .transferred) (id : String) :
  ¬ TransferredTo row id
  := by
  rintro ⟨r, hr, hdisposition, -⟩
  apply h
  rw [MachineExecution.Fields.retirementDisposition_eq_some_iff]
  use r, hr

/-- A fresh execution does not transfer the machine. -/
theorem retirementDisposition_of_preparing {e : MachineExecution}
    (h : e.val.phase = .preparingSession) :
  e.val.retirementDisposition ≠ some .transferred
  := by
  have hnone : e.val.retirement = none := by
    apply MachineExecution.retirement_eq_none <;> rw [h] <;> decide
  simp [MachineExecution.Fields.retirementDisposition, hnone]

/-- A revision that is no transfer keeps that every transfer is completed. -/
theorem transfersCompleted_of_transitioned {prior : ExecutionRow} {e : MachineExecution}
    (h : Transitioned db prior e db') (he : e.val.retirementDisposition ≠ some .transferred)
    (ht : TransfersCompleted db.executions) :
  TransfersCompleted db'.executions
  := by
  apply transfersCompleted_of_change (change_of_transitioned h) _ ht
  intro p hp
  obtain ⟨outcome, -, htable⟩ := h.executions
  rw [htable, Table.mem_set] at hp
  obtain ⟨rfl, -⟩ | ⟨hp, -⟩ := hp
  · right
    apply not_transferredTo he
  · left
    apply hp

/-- A transfer is completed by its own call. -/
theorem transfersCompleted_of_transferOwner {n : Nat} {e successor : MachineExecution}
    {event successorEvent : MachineEvent} {audit successorAudit : MachineAuditPayload}
    (h : db.transferOwner n e successor event successorEvent audit successorAudit = .ok db')
    (ht : TransfersCompleted db.executions) :
  TransfersCompleted db'.executions
  := by
  obtain ⟨prior, db₁, db₂, -, htrans, -, -, hins, -, hphase, hpredecessor, hretirement, -,
    hexec, -⟩ := of_transferOwner h
  have hfirst := change_of_transitioned htrans
  have hsecond := change_of_inserted hins hphase
  rw [hexec]
  intro p hp id hid
  rw [Table.mem_of_insert? hins.table] at hp
  obtain hp | rfl := hp
  · obtain ⟨outcome, -, htable⟩ := htrans.executions
    rw [htable, Table.mem_set] at hp
    obtain ⟨rfl, -⟩ | ⟨hp, -⟩ := hp
    · -- The retired predecessor: its successor was inserted by this call.
      use ⟨successor, none⟩
      obtain ⟨r, hr, -, hsuccessor⟩ := hretirement
      obtain ⟨r', hr', -, hid'⟩ := hid
      obtain rfl : r = r' := Option.some.inj (hr.symm.trans hr')
      refine ⟨?_, Option.some.inj (hsuccessor.symm.trans hid'), hpredecessor⟩
      rw [Table.mem_of_insert? hins.table]
      right
      rfl
    · apply successor_of_change hsecond
      apply successor_of_change hfirst (ht p hp id hid)
  · apply absurd hid
    apply not_transferredTo (retirementDisposition_of_preparing hphase)

/-- A call that transfers the machine as a whole keeps that every transfer is completed. -/
theorem transfersCompleted_of_call {c : Call} (hc : c.TransfersWhole) (h : c.apply db = .ok db')
    (ht : TransfersCompleted db.executions) :
  TransfersCompleted db'.executions
  := by
  cases c with
  | createExecution e event audit =>
      obtain ⟨db₁, hins, hexec, -, hphase, -⟩ := of_createExecution h
      rw [hexec]
      apply transfersCompleted_of_change (change_of_inserted hins hphase) _ ht
      intro p hp
      rw [Table.mem_of_insert? hins.table] at hp
      obtain hp | rfl := hp
      · left
        apply hp
      · right
        apply not_transferredTo (retirementDisposition_of_preparing hphase)
  | recordOpenedSession n e session event audit =>
      obtain ⟨prior, -, htrans, -⟩ := of_recordOpenedSession h
      apply transfersCompleted_of_transitioned htrans hc ht
  | transitionExecution n e event audit =>
      obtain ⟨prior, -, htrans, -⟩ := of_transitionExecution h
      apply transfersCompleted_of_transitioned htrans hc ht
  | commitMachineOutcome n e o event audit session =>
      obtain ⟨prior, -, htrans, -⟩ := of_commitMachineOutcome h
      apply transfersCompleted_of_transitioned htrans hc ht
  | reconcileRestart n e event audit outcome =>
      obtain ⟨-, -, -, hcases, -⟩ := of_reconcileRestart h
      obtain ⟨_, -, -, -, -, hexec, -⟩ | ⟨prior, -, htrans, -⟩ := hcases
      · rw [hexec]
        apply ht
      · apply transfersCompleted_of_transitioned htrans hc ht
  | releaseOwner n e event audit =>
      simp only [Call.apply, releaseOwner, Except.unit_bind_eq_ok_iff, rejectIf_eq_ok_iff,
        not_not] at h
      obtain ⟨prior, -, htrans, -⟩ := of_transitionExecution h.2
      apply transfersCompleted_of_transitioned htrans _ ht
      rw [h.1]
      decide
  | transferOwner n p s pe se pa sa => apply transfersCompleted_of_transferOwner h ht
  | _ =>
      rw [executions_of_call h id]
      apply ht

/-- Every transfer is completed in every database that a run of such calls reaches. -/
theorem transfersCompleted_of_reachable (h : Reachable Call.TransfersWhole db) :
  TransfersCompleted db.executions
  := by
  obtain ⟨db₀, hempty, hrun⟩ := h
  apply hrun.keeps (P := fun db => TransfersCompleted db.executions)
  · intro c hc a b hcall ha
    apply transfersCompleted_of_call hc hcall ha
  · intro a b hab ha
    rw [hab]
    apply ha
  · intro p hp
    rw [Table.mem_def, hempty] at hp
    cases hp

/-! ### The main result -/

/-- What holds of the executions of a database: one of them at most owns the machine, and
they form chains, each within one job, along which the machine was transferred. -/
structure MachineOwnership (t : Executions) : Prop where
  oneActive : ∀ a ∈ t, ∀ b ∈ t, a.Active → b.Active → a = b
  predecessor : ∀ s ∈ t, ∀ id, s.execution.val.predecessorExecutionId = some id →
    ∃ p, Precedes t p s ∧ p.executionId = id
  succeeds : ∀ p s, Precedes t p s → Succeeds p s
  linear : ∀ p s s', Precedes t p s → Precedes t p s' → s = s'
  functional : ∀ p p' s, Precedes t p s → Precedes t p' s → p = p'
  acyclic : ∀ r, ¬ Relation.TransGen (Precedes t) r r
  oneJob : ∀ p s, Relation.ReflTransGen (Precedes t) p s →
    s.execution.val.jobId = p.execution.val.jobId

/-- The ownership of a table that every change keeps. -/
theorem machineOwnership_of_owned {t : Executions} (h : Owned t) : MachineOwnership t where
  oneActive := h.oneActive
  predecessor := by
    intro s hs id hid
    obtain ⟨p, hp, rfl, -⟩ := h.named s hs id hid
    use p
    refine ⟨⟨hp, hs, hid⟩, rfl⟩
  succeeds _ _ := h.succeeds
  linear _ _ _ := h.successor_unique
  functional _ _ _ := predecessor_unique
  acyclic := h.acyclic
  oneJob _ _ := h.jobId_eq

/-- In every database that a run of committed and rolled-back transactions reaches, the
executions form chains with one owner of the machine at most; later databases of the run
keep what is retired; and when transfers are only recorded together with their successor,
every execution that transferred the machine has exactly one successor. -/
theorem single_machine_owner :
  (∀ db, Reachable anyCall db → MachineOwnership db.executions) ∧
    (∀ db db', Reachable anyCall db → Run anyCall db db' → ∀ r ∈ db.executions,
      r.execution.val.retirement ≠ none → ∃ r' ∈ db'.executions, Keeps r r') ∧
    (∀ db, Reachable Call.TransfersWhole db → ∀ p ∈ db.executions,
      p.execution.val.retirementDisposition = some .transferred →
        ∃! s, Precedes db.executions p s)
  := by
  refine ⟨?_, ?_, ?_⟩
  · intro db h
    apply machineOwnership_of_owned (owned_of_reachable h)
  · intro db db' _ hrun r hr hretired
    obtain ⟨r', hr', hkeeps, -⟩ := keeps_of_run hrun hr hretired
    use r', hr'
  · intro db h p hp hdisposition
    obtain ⟨r, hr, htransferred⟩ :=
      MachineExecution.Fields.retirementDisposition_eq_some_iff.mp hdisposition
    have hsome : r.val.successorExecutionId.isSome = true := by
      have hpost := r.property
      simp only [OwnerRetirementEvidence.Fields.postInit, Except.unit_bind_eq_ok_iff,
        rejectIf_eq_ok_iff, not_not] at hpost
      apply hpost.2.2.1.mpr htransferred
    obtain ⟨id, hid⟩ := Option.isSome_iff_exists.mp hsome
    obtain ⟨s, hs, -, hpid⟩ :=
      transfersCompleted_of_reachable h p hp id ⟨r, hr, htransferred, hid⟩
    use s
    constructor
    · refine ⟨hp, hs, hpid⟩
    · intro s' hs'
      apply (owned_of_reachable h).successor_unique hs' ⟨hp, hs, hpid⟩

/-! ### Sample runs -/

/-- An event of a sample execution. -/
def sampleEvent (id : String) (e : MachineExecution) (hid : PlainText id) : MachineEvent :=
  ⟨{ schemaVersion := 1
     eventId := id
     executionId := e.val.executionId
     jobId := e.val.jobId
     executionRevision := e.val.revision
     eventType := "REVISED"
     phase := e.val.phase
     action := none
     payload := .v1 ⟨⟨1, none, none, none⟩, rfl⟩
     occurredAt := e.val.updatedAt }, by
    have hfields := (MachineExecution.Fields.postInit_eq_ok_iff.mp e.property).1
    simp only [MachineExecution.Fields.checkFields, Except.unit_bind_eq_ok_iff,
      checkString_eq_ok_iff] at hfields
    have htype : PlainText "REVISED" := by decide
    simp [MachineEvent.Fields.postInit, MachineEvent.Fields.checkResultPhase, hid, htype,
      hfields.2.1, hfields.2.2.1]⟩

/-- The audit payload of a sample event. -/
def sampleAudit (id : String) (e : MachineExecution) (hid : PlainText id) :
    MachineAuditPayload :=
  .v1 ⟨{ schemaVersion := 1
         operation := "REVISE"
         decision := "ACCEPTED"
         executionId := e.val.executionId
         jobId := e.val.jobId
         executionRevision := e.val.revision
         requestId := none
         reasonCode := none
         eventId := id }, by
    have hfields := (MachineExecution.Fields.postInit_eq_ok_iff.mp e.property).1
    simp only [MachineExecution.Fields.checkFields, Except.unit_bind_eq_ok_iff,
      checkString_eq_ok_iff] at hfields
    have hoperation : PlainText "REVISE" := by decide
    have hdecision : PlainText "ACCEPTED" := by decide
    simp [MachineAuditPayloadV1.Fields.postInit, hid, hoperation, hdecision, hfields.2.1,
      hfields.2.2.1]⟩

/-- A sample digest. -/
def sampleDigest : String := "0123456789abcdef0123456789abcdef0123456789abcdef0123456789abcdef"

/-- The fields of the samples. -/
def sampleFields (id epoch : String) : MachineExecution.Fields where
  schemaVersion := 1
  executionId := id
  jobId := "job"
  readyRevision := 1
  revision := 0
  phase := .preparingSession
  serviceEpoch := "service"
  machineSessionEpoch := epoch
  gcodeSha256 := sampleDigest
  applicationVersion := "1"
  applicationDigest := sampleDigest
  machineDigest := sampleDigest
  providerDigest := sampleDigest
  streamMilestone := .notStarted
  recoveryIntent := none
  predecessorExecutionId := none
  recoveryEvidence := none
  retirement := none
  createdAt := 0
  updatedAt := 0

/-- The plain fields of the samples pass their checks. -/
theorem checkFields_sample {i e : String} {p : Option String} (hid : PlainText i)
    (hepoch : PlainText e) (hp : ∀ v, p = some v → PlainText v) (hne : p ≠ some i) :
  ({ sampleFields i e with predecessorExecutionId := p }).checkFields = .ok ()
  := by
  have hdigest : PlainText sampleDigest ∧ Sha256Hex sampleDigest := by decide +kernel
  have hjob : PlainText "job" := by decide
  have hservice : PlainText "service" := by decide
  have hversion : PlainText "1" := by decide
  simpa [MachineExecution.Fields.checkFields, sampleFields, hid, hepoch, hjob, hservice,
    hversion, hdigest] using ⟨hp, rejectIf_eq_ok_iff.mpr hne⟩

/-- The job of the samples. -/
def sampleSnapshot : ReadyToRunSnapshot :=
  ⟨{ schemaVersion := 1
     jobId := "job"
     jobRevision := 1
     gcode := ⟨⟨"gcode", "program.gcode", sampleDigest, 10, "text/x.gcode"⟩, by decide +kernel⟩
     artifacts := []
     staticResult := ""
     sendPlan := ""
     readiness := ""
     config := ⟨⟨"machine", "provider", 1, 1, 1, sampleDigest, sampleDigest, sampleDigest⟩,
       by decide +kernel⟩
     planningParameters := ""
     applicationVersion := "1" }, by decide +kernel⟩

/-- The job of the samples. -/
def sampleJob : JobRecord.Fields where
  schemaVersion := 1
  jobId := "job"
  kind := .offlineWorkflow
  name := "drawing"
  state := .readyToRun
  revision := 1
  request := ""
  config := sampleSnapshot.val.config
  blocker := none
  error := none
  readySnapshot := some sampleSnapshot
  createdAt := 0
  updatedAt := 0

/-- A database with a job that is ready to run, and nothing else. -/
def sampleDatabase : Database where
  jobs := ⟨[sampleJob], by decide⟩
  executions := Table.empty _
  sessions := Table.empty _
  challenges := Table.empty _
  requests := Table.empty _
  events := Table.empty _
  progress := Table.empty _
  jobEvents := Table.empty _
  auditEvents := Table.empty _

/-- The stages of an execution that draws, up to the write of the first command. -/
def drawingStages : List (MachinePhase × StreamMilestone) :=
  [ (.preparingSession, .notStarted), (.awaitingHomeApproval, .notStarted),
    (.homing, .notStarted), (.awaitingZcalApproval, .notStarted), (.zCalibrating, .notStarted),
    (.awaitingZconfirmApproval, .notStarted), (.zConfirming, .notStarted),
    (.awaitingStreamApproval, .notStarted), (.streaming, .firstWritePossible) ]

/-- There is a first stage. -/
instance neZero_stages : NeZero 9 := ⟨by decide⟩

/-- The fields of an execution at a stage. -/
def stageFields (i : Fin 9) : MachineExecution.Fields :=
  { sampleFields "a" "session-a" with
    revision := i
    phase := (drawingStages.get i).1
    streamMilestone := (drawingStages.get i).2
    updatedAt := i.val }

/-- An execution at a stage. -/
def stage (i : Fin 9) : MachineExecution :=
  ⟨stageFields i, by
    apply MachineExecution.Fields.postInit_eq_ok_iff.mpr
    constructor
    · apply checkFields_sample (i := "a") (e := "session-a") (p := none) <;> decide
    · revert i
      decide⟩

/-- There is a first event. -/
instance neZero_events : NeZero 12 := ⟨by decide⟩

/-- The identifiers of the sample events. -/
def sampleEventId (i : Fin 12) : String :=
  ["event-a", "event-b", "event-c", "event-d", "event-e", "event-f", "event-g", "event-h",
    "event-i", "event-j", "event-k", "event-l"].get i

/-- The identifiers of the sample events are plain texts. -/
theorem plainText_sampleEventId (i : Fin 12) : PlainText (sampleEventId i) := by
  revert i
  decide

/-- The event of a sample under its identifier. -/
def eventAt (i : Fin 12) (e : MachineExecution) : MachineEvent :=
  sampleEvent (sampleEventId i) e (plainText_sampleEventId i)

/-- The audit payload of a sample under its identifier. -/
def auditAt (i : Fin 12) (e : MachineExecution) : MachineAuditPayload :=
  sampleAudit (sampleEventId i) e (plainText_sampleEventId i)

/-- The session of the samples. -/
def sampleSession : MachineSessionSnapshot :=
  ⟨{ schemaVersion := 1
     executionId := "a"
     machineSessionEpoch := "session-a"
     controllerState := "Idle"
     mpos := ⟨0, 0, 0⟩
     wpos := ⟨0, 0, 0⟩
     wco := ⟨0, 0, 0⟩
     g54 := ⟨0, 0, 0⟩
     stabilized := true
     observedAt := 0 }, by decide⟩

/-- The execution at the end of its stages, completed at the ninth instant and last updated
at the instant of its revision. -/
def completedFields (revision : Nat) : MachineExecution.Fields :=
  { sampleFields "a" "session-a" with
    revision := revision
    phase := .completed
    streamMilestone := .streamConfirmed
    retirement := some ⟨⟨"a", .completed, 9, none⟩, by decide⟩
    updatedAt := revision }

/-- The completed execution at its first revision. -/
def completedFirst : MachineExecution :=
  ⟨completedFields 9, by
    apply MachineExecution.Fields.postInit_eq_ok_iff.mpr
    constructor
    · apply checkFields_sample (i := "a") (e := "session-a") (p := none) <;> decide
    · decide⟩

/-- The completed execution at a second revision. -/
def completedAgain : MachineExecution :=
  ⟨completedFields 10, by
    apply MachineExecution.Fields.postInit_eq_ok_iff.mpr
    constructor
    · apply checkFields_sample (i := "a") (e := "session-a") (p := none) <;> decide
    · decide⟩

/-- The calls of an execution that draws to its end. -/
def drawingCalls : List Call :=
  [ .createExecution (stage 0) (eventAt 0 (stage 0)) (auditAt 0 (stage 0)),
    .recordOpenedSession 0 (stage 1) sampleSession (eventAt 1 (stage 1)) (auditAt 1 (stage 1)),
    .transitionExecution 1 (stage 2) (eventAt 2 (stage 2)) (auditAt 2 (stage 2)),
    .transitionExecution 2 (stage 3) (eventAt 3 (stage 3)) (auditAt 3 (stage 3)),
    .transitionExecution 3 (stage 4) (eventAt 4 (stage 4)) (auditAt 4 (stage 4)),
    .transitionExecution 4 (stage 5) (eventAt 5 (stage 5)) (auditAt 5 (stage 5)),
    .transitionExecution 5 (stage 6) (eventAt 6 (stage 6)) (auditAt 6 (stage 6)),
    .transitionExecution 6 (stage 7) (eventAt 7 (stage 7)) (auditAt 7 (stage 7)),
    .transitionExecution 7 (stage 8) (eventAt 8 (stage 8)) (auditAt 8 (stage 8)),
    .transitionExecution 8 completedFirst (eventAt 9 completedFirst)
      (auditAt 9 completedFirst) ]

/-- The database after the execution has completed. -/
def completedDatabase : Database :=
  (Transaction.mk drawingCalls true).run sampleDatabase

/-- The transaction that revises the completed execution once more. -/
def reviseCompleted : Transaction :=
  ⟨[.transitionExecution 9 completedAgain (eventAt 10 completedAgain)
      (auditAt 10 completedAgain)], true⟩

/-- Evidence that an execution needs recovery. -/
def sampleEvidence (id : String) (intent : RecoveryIntent) (milestone : StreamMilestone)
    (occurredAt : Timestamp) (hid : PlainText id)
    (h : recoveryIntentForMilestone milestone = intent) : MachineRecoveryEvidence :=
  ⟨{ schemaVersion := 1
     executionId := id
     recoveryIntent := intent
     streamMilestone := milestone
     reasonCode := "LOST"
     failure := ⟨⟨1, "LOST", "connection lost", none, false⟩, by decide⟩
     occurredAt := occurredAt
     motion := none }, by
    have hreason : PlainText "LOST" := by decide
    simp [MachineRecoveryEvidence.Fields.postInit, hid, hreason, h]⟩

/-- The sample execution in recovery. -/
def recoveredFields : MachineExecution.Fields :=
  { sampleFields "a" "session-a" with
    revision := 1
    phase := .recoveryRequired
    recoveryIntent := some .preStreamRestart
    recoveryEvidence := some (sampleEvidence "a" .preStreamRestart .notStarted 1 (by decide) rfl)
    updatedAt := 1 }

/-- The sample execution in recovery. -/
def recovered : MachineExecution :=
  ⟨recoveredFields, by
    apply MachineExecution.Fields.postInit_eq_ok_iff.mpr
    constructor
    · apply checkFields_sample (i := "a") (e := "session-a") (p := none) <;> decide
    · decide⟩

/-- The sample execution after it transferred the machine. -/
def transferred : MachineExecution :=
  ⟨{ recoveredFields with
     revision := 2
     retirement := some ⟨⟨"a", .transferred, 2, some "b"⟩, by decide⟩
     updatedAt := 2 }, by
    apply MachineExecution.Fields.postInit_eq_ok_iff.mpr
    constructor
    · apply checkFields_sample (i := "a") (e := "session-a") (p := none) <;> decide
    · decide⟩

/-- The sample execution after it released the machine. -/
def released : MachineExecution :=
  ⟨{ recoveredFields with
     revision := 2
     retirement := some ⟨⟨"a", .released, 2, none⟩, by decide⟩
     updatedAt := 2 }, by
    apply MachineExecution.Fields.postInit_eq_ok_iff.mpr
    constructor
    · apply checkFields_sample (i := "a") (e := "session-a") (p := none) <;> decide
    · decide⟩

/-- The fields of the successor of the sample execution. -/
def successorFields : MachineExecution.Fields :=
  { sampleFields "b" "session-b" with
    predecessorExecutionId := some "a"
    recoveryIntent := some .preStreamRestart
    createdAt := 2
    updatedAt := 2 }

/-- The successor of the sample execution. -/
def successor : MachineExecution :=
  ⟨successorFields, by
    apply MachineExecution.Fields.postInit_eq_ok_iff.mpr
    constructor
    · apply checkFields_sample (i := "b") (e := "session-b") (p := some "a") <;> decide
    · decide⟩

/-- The successor after a write became possible. -/
def successorWrote : MachineExecution :=
  ⟨{ successorFields with
     revision := 1
     phase := .recoveryRequired
     streamMilestone := .firstWritePossible
     recoveryEvidence := some (sampleEvidence "b" .streamAmbiguousReleaseOnly
       .firstWritePossible 3 (by decide) rfl)
     updatedAt := 3 }, by
    apply MachineExecution.Fields.postInit_eq_ok_iff.mpr
    constructor
    · apply checkFields_sample (i := "b") (e := "session-b") (p := some "a") <;> decide
    · decide⟩

/-- The outcome of the sample execution in recovery. -/
def recoveredOutcome : JobOutcome where
  outcome := ⟨⟨1, "a", "job", 1, .recoveryRequired, sampleSnapshot,
    recoveredFields.recoveryEvidence, 1⟩, by decide⟩
  transition := ⟨⟨"job", 1, .recoveryRequired, "RECOVERY_REQUIRED", sampleSnapshot⟩, by decide⟩
  event := ⟨⟨"job-event", "job", 2, "RECOVERY_REQUIRED", some .readyToRun, .recoveryRequired,
    none, "SERVICE", .service, 1⟩, by decide⟩
  audit := ⟨{ eventId := "job-event"
              eventType := "RECOVERY_REQUIRED"
              requestId := none
              requester := .service
              jobId := "job"
              commandName := "reconcile"
              commandEventType := "RECOVERY_REQUIRED"
              jobKind := .offlineWorkflow
              priorState := some .readyToRun
              resultState := .recoveryRequired
              errorCode := none
              blockerCode := none
              serviceVersion := "1" }, by decide⟩

/-- The database after the machine was transferred and the successor wrote. -/
def transferredDatabase : Database :=
  (Transaction.mk
    [ .createExecution (stage 0) (eventAt 0 (stage 0)) (auditAt 0 (stage 0)),
      .commitMachineOutcome 0 recovered recoveredOutcome (eventAt 1 recovered)
        (auditAt 1 recovered) none,
      .transferOwner 1 transferred successor (eventAt 2 transferred) (eventAt 3 successor)
        (auditAt 2 transferred) (auditAt 3 successor),
      .transitionExecution 0 successorWrote (eventAt 4 successorWrote)
        (auditAt 4 successorWrote) ] true).run sampleDatabase

/-- The fields of a second initial execution of the sample job, in recovery. -/
def secondFields : MachineExecution.Fields :=
  { sampleFields "b" "session-b" with
    revision := 1
    phase := .recoveryRequired
    recoveryIntent := some .preStreamRestart
    recoveryEvidence := some (sampleEvidence "b" .preStreamRestart .notStarted 1 (by decide) rfl)
    updatedAt := 1 }

/-- A second initial execution of the sample job. -/
def second : MachineExecution :=
  ⟨sampleFields "b" "session-b", by
    apply MachineExecution.Fields.postInit_eq_ok_iff.mpr
    constructor
    · apply checkFields_sample (i := "b") (e := "session-b") (p := none) <;> decide
    · decide⟩

/-- The second execution in recovery. -/
def secondRecovered : MachineExecution :=
  ⟨secondFields, by
    apply MachineExecution.Fields.postInit_eq_ok_iff.mpr
    constructor
    · apply checkFields_sample (i := "b") (e := "session-b") (p := none) <;> decide
    · decide⟩

/-- The second execution, retired in favour of an execution that is no successor of it. -/
def secondTransferred : MachineExecution :=
  ⟨{ secondFields with
     revision := 2
     retirement := some ⟨⟨"b", .transferred, 2, some "a"⟩, by decide⟩
     updatedAt := 2 }, by
    apply MachineExecution.Fields.postInit_eq_ok_iff.mpr
    constructor
    · apply checkFields_sample (i := "b") (e := "session-b") (p := none) <;> decide
    · decide⟩

/-- The database after the second execution was retired by a plain transition. -/
def misdirectedDatabase : Database :=
  (Transaction.mk
    [ .createExecution (stage 0) (eventAt 0 (stage 0)) (auditAt 0 (stage 0)),
      .transitionExecution 0 recovered (eventAt 1 recovered) (auditAt 1 recovered),
      .releaseOwner 1 released (eventAt 2 released) (auditAt 2 released),
      .createExecution second (eventAt 3 second) (auditAt 3 second),
      .transitionExecution 0 secondRecovered (eventAt 4 secondRecovered)
        (auditAt 4 secondRecovered),
      .transitionExecution 1 secondTransferred (eventAt 5 secondTransferred)
        (auditAt 5 secondTransferred) ] true).run sampleDatabase

/-- The database a transaction leaves of the sample database is reachable. -/
theorem reachable_run (tx : Transaction) : Reachable anyCall (tx.run sampleDatabase) := by
  use sampleDatabase, rfl
  apply Relation.ReflTransGen.single
  apply Step.transaction
  intro c _
  trivial

/-- A successor leaves the milestone it started from, a completed execution can be revised
again, and an execution can be retired in favour of one that does not name it back. -/
theorem ownership_exceptions :
  (Reachable anyCall transferredDatabase ∧
      Precedes transferredDatabase.executions ⟨transferred, some recoveredOutcome.outcome⟩
        ⟨successorWrote, none⟩ ∧
      successorWrote.val.streamMilestone ≠ transferred.val.streamMilestone) ∧
    (Reachable anyCall completedDatabase ∧
      Run anyCall completedDatabase (reviseCompleted.run completedDatabase) ∧
      ⟨completedFirst, none⟩ ∈ completedDatabase.executions ∧
      completedFirst.val.retirement ≠ none ∧
      ⟨completedFirst, none⟩ ∉ (reviseCompleted.run completedDatabase).executions) ∧
    (Reachable anyCall misdirectedDatabase ∧
      ⟨secondTransferred, none⟩ ∈ misdirectedDatabase.executions ∧
      secondTransferred.val.retirementDisposition = some .transferred ∧
      ∀ s, ¬ Precedes misdirectedDatabase.executions ⟨secondTransferred, none⟩ s)
  := by
  refine ⟨⟨reachable_run _, ?_, by decide⟩, ⟨reachable_run _, ?_, ?_, by decide, ?_⟩,
    ⟨reachable_run _, ?_, by decide, ?_⟩⟩
  · refine ⟨?_, ?_, rfl⟩
    · rw [Table.mem_def]
      decide +kernel
    · rw [Table.mem_def]
      decide +kernel
  · apply Relation.ReflTransGen.single
    apply Step.transaction
    intro c _
    trivial
  · rw [Table.mem_def]
    decide +kernel
  · rw [Table.mem_def]
    decide +kernel
  · rw [Table.mem_def]
    decide +kernel
  · have hnone : ∀ s ∈ misdirectedDatabase.executions.rows,
        s.execution.val.predecessorExecutionId ≠ some "b" := by
      decide +kernel
    rintro s ⟨-, hs, hid⟩
    apply hnone s hs hid

/-- The executions of the transferred sample. -/
theorem single_machine_owner_sample :
  MachineOwnership transferredDatabase.executions ∧
    ⟨successorWrote, none⟩ ∈ transferredDatabase.executions
  := by
  refine ⟨single_machine_owner.1 _ (reachable_run _), ?_⟩
  rw [Table.mem_def]
  decide +kernel

end Database

end DrawingMachine
