import Mathlib.Logic.Relation
import DrawingMachine.Persistence.Effects

/-!
# Ownership of the machine

The table of executions changes in two ways: a fresh execution is inserted, and a row is
replaced by its next revision. `Change` is that relation, `Owned` is what every change
keeps, and `Keeps` is what a change does to a row that is retired. The operations of the
repository are sequences of changes.
-/

namespace DrawingMachine

/-- The table of executions. -/
abbrev Executions := Table String ExecutionRow.executionId

namespace Executions

/-- The row `s` names the row `p` as its predecessor. -/
def Precedes (t : Executions) (p s : ExecutionRow) : Prop :=
  p ∈ t ∧ s ∈ t ∧ s.execution.val.predecessorExecutionId = some p.executionId

/-- The retirement of `p` transferred the machine to `s`. -/
def TransferredTo (p : ExecutionRow) (s : String) : Prop :=
  ∃ r, p.execution.val.retirement = some r ∧ r.val.disposition = .transferred ∧
    r.val.successorExecutionId = some s

/-- What a successor shares with its predecessor, which transferred the machine to it: the
job, the ready revision, the application, all digests and the intent. Its milestone started
at the one the predecessor froze, and has not gone back. -/
structure Succeeds (p s : ExecutionRow) : Prop where
  phase : p.execution.val.phase = .recoveryRequired
  transferred : TransferredTo p s.executionId
  jobId : s.execution.val.jobId = p.execution.val.jobId
  readyRevision : s.execution.val.readyRevision = p.execution.val.readyRevision
  gcodeSha256 : s.execution.val.gcodeSha256 = p.execution.val.gcodeSha256
  applicationVersion : s.execution.val.applicationVersion = p.execution.val.applicationVersion
  applicationDigest : s.execution.val.applicationDigest = p.execution.val.applicationDigest
  machineDigest : s.execution.val.machineDigest = p.execution.val.machineDigest
  providerDigest : s.execution.val.providerDigest = p.execution.val.providerDigest
  recoveryIntent : s.execution.val.recoveryIntent = p.execution.val.recoveryIntent
  milestone : p.execution.val.streamMilestone.order ≤ s.execution.val.streamMilestone.order

/-- One change of the table. -/
inductive Change : Executions → Executions → Prop
  /-- A fresh execution is inserted. A successor is the one its predecessor was retired
  for. -/
  | insert {t t' : Executions} (e : MachineExecution)
      (fresh : e.val.phase = .preparingSession)
      (owner : ∀ row ∈ t, ¬ row.Active)
      (predecessor : ∀ id, e.val.predecessorExecutionId = some id →
        ∃ p ∈ t, p.executionId = id ∧ Database.FrozenAuthority p.execution.val e.val)
      (table : t.insert? ⟨e, none⟩ = some t') : Change t t'
  /-- A row is replaced by its next revision. -/
  | revise {t t' : Executions} (prior : ExecutionRow) (e : MachineExecution)
      (outcome : Option MachineOutcome)
      (mem : prior ∈ t) (progresses : Progresses prior.execution e)
      (owner : e.val.retirement = none → ∀ row ∈ t, row.executionId ≠ e.val.executionId →
        ¬ row.Active)
      (table : t' = t.set ⟨e, outcome⟩) : Change t t'

variable {t t' : Executions}

/-! ### What a change does to a row -/

/-- A row that was retired from `RECOVERY_REQUIRED` has no next revision. -/
theorem not_progresses_of_retired {p e : MachineExecution}
    (hphase : p.val.phase = .recoveryRequired) (hretired : p.val.retirement ≠ none) :
  ¬ Progresses p e
  := by
  intro h
  apply hretired (h.retires hphase).1

/-- A row stays, or becomes its next revision. -/
theorem Change.mem_or (h : Change t t') {row : ExecutionRow} (hrow : row ∈ t) :
  row ∈ t' ∨ ∃ row' ∈ t', Progresses row.execution row'.execution
  := by
  cases h with
  | insert e fresh owner predecessor table =>
      left
      rw [Table.mem_of_insert? table]
      left
      apply hrow
  | revise prior e outcome mem progresses owner table =>
      subst table
      have hid : prior.executionId = e.val.executionId := progresses.executionId.symm
      by_cases heq : row.executionId = e.val.executionId
      · right
        obtain rfl : row = prior := Table.eq_of_key_eq hrow mem (heq.trans hid.symm)
        use ⟨e, outcome⟩
        constructor
        · rw [Table.mem_set]
          left
          refine ⟨rfl, row, hrow, hid⟩
        · apply progresses
      · left
        rw [Table.mem_set]
        right
        refine ⟨hrow, heq⟩

/-- A row that was retired from `RECOVERY_REQUIRED` stays as it is. -/
theorem Change.mem_of_retired (h : Change t t') {row : ExecutionRow} (hrow : row ∈ t)
    (hphase : row.execution.val.phase = .recoveryRequired)
    (hretired : row.execution.val.retirement ≠ none) :
  row ∈ t'
  := by
  obtain hmem | ⟨row', -, hprog⟩ := h.mem_or hrow
  · apply hmem
  · apply absurd hprog (not_progresses_of_retired hphase hretired)

/-! ### What every change keeps -/

/-- What holds of the executions: one of them at most owns the machine, a predecessor that
is named is the one that transferred the machine, and it was recorded before its
successor. -/
structure Owned (t : Executions) : Prop where
  oneActive : ∀ a ∈ t, ∀ b ∈ t, a.Active → b.Active → a = b
  named : ∀ s ∈ t, ∀ id, s.execution.val.predecessorExecutionId = some id →
    ∃ p ∈ t, p.executionId = id ∧ Succeeds p s
  ordered : t.rows.Pairwise fun a b =>
    a.execution.val.predecessorExecutionId ≠ some b.executionId

/-- The empty table is owned by nobody. -/
theorem owned_empty (t : Executions) (h : t.rows = []) : Owned t := by
  constructor
  · intro a ha
    rw [Table.mem_def, h] at ha
    cases ha
  · intro s hs
    rw [Table.mem_def, h] at hs
    cases hs
  · rw [h]
    apply List.Pairwise.nil

/-- A successor that starts with what its predecessor froze succeeds it. -/
theorem succeeds_of_frozenAuthority {p s : ExecutionRow}
    (h : Database.FrozenAuthority p.execution.val s.execution.val) :
  Succeeds p s
  := by
  obtain ⟨hphase, hretirement, hjob, hready, hgcode, hversion, happ, hmachine, hprovider,
    hmilestone, hintent, -⟩ := h
  constructor
  case phase => apply hphase
  case transferred =>
    obtain ⟨r, hr, hdecide⟩ := (Option.any_eq_true _ _).mp hretirement
    use r, hr
    apply of_decide_eq_true hdecide
  case milestone => rw [hmilestone]
  all_goals apply Eq.symm; assumption

/-- The next revision of a successor succeeds the same predecessor. -/
theorem Succeeds.of_progresses {p s s' : ExecutionRow} (h : Succeeds p s)
    (hs : s.execution.val.predecessorExecutionId ≠ none)
    (hprog : Progresses s.execution s'.execution) :
  Succeeds p s'
  := by
  have hb := hprog.permanentBindings
  simp only [MachineExecution.Fields.permanentBindings, PermanentBindings.mk.injEq] at hb
  obtain ⟨-, hjob, hready, hgcode, hversion, happ, hmachine, hprovider, -⟩ := hb
  constructor
  · apply h.phase
  · rw [ExecutionRow.executionId, hprog.executionId]
    apply h.transferred
  · apply hjob.trans h.jobId
  · apply hready.trans h.readyRevision
  · apply hgcode.trans h.gcodeSha256
  · apply hversion.trans h.applicationVersion
  · apply happ.trans h.applicationDigest
  · apply hmachine.trans h.machineDigest
  · apply hprovider.trans h.providerDigest
  · apply (hprog.intent_of_successor hs).trans h.recoveryIntent
  · have hm := hprog.milestone
    have hle := h.milestone
    omega

/-- The predecessor of a successor is retired. -/
theorem Succeeds.retired {p s : ExecutionRow} (h : Succeeds p s) :
  p.execution.val.retirement ≠ none
  := by
  obtain ⟨r, hr, -⟩ := h.transferred
  rw [hr]
  apply Option.some_ne_none

/-- An unretired row after a change was unretired before, or is fresh. -/
theorem active_of_progresses {a b : ExecutionRow} (h : Progresses a.execution b.execution)
    (hb : b.Active) :
  a.Active
  := by
  rw [Database.active_iff] at hb ⊢
  by_contra hne
  rw [← h.retirement hne] at hne
  apply hne hb

/-- A change keeps that one execution at most owns the machine. -/
theorem Change.oneActive (h : Change t t') (ht : Owned t) :
  ∀ a ∈ t', ∀ b ∈ t', a.Active → b.Active → a = b
  := by
  intro a ha b hb hactiveA hactiveB
  cases h with
  | insert e fresh owner predecessor table =>
      rw [Table.mem_of_insert? table] at ha hb
      obtain ha | rfl := ha
      · apply absurd hactiveA (owner a ha)
      · obtain hb | rfl := hb
        · apply absurd hactiveB (owner b hb)
        · rfl
  | revise prior e outcome mem progresses owner table =>
      subst table
      rw [Table.mem_set] at ha hb
      obtain ⟨rfl, -⟩ | ⟨ha, hneA⟩ := ha
      · obtain ⟨rfl, -⟩ | ⟨hb, hneB⟩ := hb
        · rfl
        · apply absurd hactiveB (owner hactiveA.1 b hb hneB)
      · obtain ⟨rfl, -⟩ | ⟨hb, hneB⟩ := hb
        · apply absurd hactiveA (owner hactiveB.1 a ha hneA)
        · apply ht.oneActive a ha b hb hactiveA hactiveB

/-- A change keeps that every predecessor that is named transferred the machine. -/
theorem Change.named (h : Change t t') (ht : Owned t) :
  ∀ s ∈ t', ∀ id, s.execution.val.predecessorExecutionId = some id →
    ∃ p ∈ t', p.executionId = id ∧ Succeeds p s
  := by
  intro s hs id hid
  -- The predecessor of a row of `t` was retired from recovery, so the change keeps it.
  have hkeep : ∀ p ∈ t, ∀ s, Succeeds p s → p ∈ t' := by
    intro p hp s hsucc
    apply h.mem_of_retired hp hsucc.phase hsucc.retired
  cases h with
  | insert e fresh owner predecessor table =>
      rw [Table.mem_of_insert? table] at hs
      obtain hs | rfl := hs
      · obtain ⟨p, hp, hpid, hsucc⟩ := ht.named s hs id hid
        use p, hkeep p hp s hsucc
      · obtain ⟨p, hp, hpid, hfrozen⟩ := predecessor id hid
        have hsucc : Succeeds p ⟨e, none⟩ := succeeds_of_frozenAuthority hfrozen
        use p, hkeep p hp _ hsucc
  | revise prior e outcome mem progresses owner table =>
      have hs' := hs
      rw [table, Table.mem_set] at hs'
      obtain ⟨rfl, -⟩ | ⟨hs', -⟩ := hs'
      · have hprior : prior.execution.val.predecessorExecutionId = some id := by
          rw [← progresses.predecessorExecutionId]
          apply hid
        obtain ⟨p, hp, hpid, hsucc⟩ := ht.named prior mem id hprior
        have hsucc' : Succeeds p ⟨e, outcome⟩ := by
          apply hsucc.of_progresses _ progresses
          rw [hprior]
          apply Option.some_ne_none
        use p, hkeep p hp _ hsucc'
      · obtain ⟨p, hp, hpid, hsucc⟩ := ht.named s hs' id hid
        use p, hkeep p hp s hsucc

/-- A change keeps that a predecessor is recorded before its successor. -/
theorem Change.ordered (h : Change t t') (ht : Owned t) :
  t'.rows.Pairwise fun a b => a.execution.val.predecessorExecutionId ≠ some b.executionId
  := by
  cases h with
  | insert e fresh owner predecessor table =>
      obtain ⟨hfresh, hrows⟩ := Table.insert?_eq_some_iff.mp table
      rw [hrows, List.pairwise_append]
      refine ⟨ht.ordered, List.pairwise_singleton _ _, ?_⟩
      intro a ha b hb hab
      rw [List.mem_singleton] at hb
      subst hb
      obtain ⟨p, hp, hpid, -⟩ := ht.named a ha _ hab
      apply hfresh p hp hpid
  | revise prior e outcome mem progresses owner table =>
      subst table
      have hid : prior.executionId = e.val.executionId := progresses.executionId.symm
      -- A replaced row has the key and the predecessor of the row it replaces.
      have hsame : ∀ a ∈ t.rows, (if a.executionId = e.val.executionId then
          (⟨e, outcome⟩ : ExecutionRow) else a).execution.val.predecessorExecutionId =
            a.execution.val.predecessorExecutionId ∧
          (if a.executionId = e.val.executionId then
            (⟨e, outcome⟩ : ExecutionRow) else a).executionId = a.executionId := by
        intro a ha
        split
        · next heq =>
            obtain rfl : a = prior := Table.eq_of_key_eq ha mem (heq.trans hid.symm)
            refine ⟨progresses.predecessorExecutionId, heq.symm⟩
        · refine ⟨rfl, rfl⟩
      simp only [Table.set, Table.update, List.pairwise_map]
      apply ht.ordered.imp_of_mem
      intro a b ha hb hab
      rw [(hsame a ha).1, (hsame b hb).2]
      apply hab

/-- Every change keeps the ownership of the machine. -/
theorem Owned.of_change (h : Change t t') (ht : Owned t) : Owned t' where
  oneActive := h.oneActive ht
  named := h.named ht
  ordered := h.ordered ht

/-- Any number of changes keep the ownership of the machine. -/
theorem Owned.of_changes (h : Relation.ReflTransGen Change t t') (ht : Owned t) :
  Owned t'
  := by
  induction h with
  | refl => apply ht
  | tail _ hchange ih => apply Owned.of_change hchange ih

/-! ### Chains of executions -/

/-- A predecessor stands before its successor. -/
theorem Owned.idxOf_lt (ht : Owned t) {p s : ExecutionRow} (h : Precedes t p s) :
  t.rows.idxOf p < t.rows.idxOf s
  := by
  obtain ⟨hp, hs, hid⟩ := h
  by_contra hle
  have hp' := List.idxOf_lt_length_iff.mpr hp
  have hs' := List.idxOf_lt_length_iff.mpr hs
  have hgetP : t.rows[t.rows.idxOf p] = p := List.getElem_idxOf hp'
  have hgetS : t.rows[t.rows.idxOf s] = s := List.getElem_idxOf hs'
  obtain heq | hlt := Nat.eq_or_lt_of_le (Nat.le_of_not_lt hle)
  · have hsame : s = p := by
      rw [← hgetS, ← hgetP]
      congr 1
    subst hsame
    have hself := s.execution.property
    have hfields := (MachineExecution.Fields.postInit_eq_ok_iff.mp hself).1
    simp only [MachineExecution.Fields.checkFields, Except.unit_bind_eq_ok_iff,
      rejectIf_eq_ok_iff] at hfields
    apply hfields.2.2.2.2.2.2.2.2.2.2.2.2 hid
  · have hpair := List.pairwise_iff_getElem.mp ht.ordered _ _ hs' hp' hlt
    rw [hgetP, hgetS] at hpair
    apply hpair hid

/-- No execution precedes itself, however far back. -/
theorem Owned.acyclic (ht : Owned t) (r : ExecutionRow) :
  ¬ Relation.TransGen (Precedes t) r r
  := by
  have hlt : ∀ {a b}, Relation.TransGen (Precedes t) a b →
      t.rows.idxOf a < t.rows.idxOf b := by
    intro a b h
    induction h with
    | single h => apply ht.idxOf_lt h
    | tail _ h ih => apply Nat.lt_trans ih (ht.idxOf_lt h)
  intro h
  apply Nat.lt_irrefl _ (hlt h)

/-- A predecessor that a successor names back succeeds it. -/
theorem Owned.succeeds (ht : Owned t) {p s : ExecutionRow} (h : Precedes t p s) :
  Succeeds p s
  := by
  obtain ⟨hp, hs, hid⟩ := h
  obtain ⟨p', hp', hpid, hsucc⟩ := ht.named s hs _ hid
  rw [Table.eq_of_key_eq hp hp' hpid.symm]
  apply hsucc

/-- An execution has one successor at most: the one it transferred the machine to. -/
theorem Owned.successor_unique (ht : Owned t) {p s s' : ExecutionRow} (h : Precedes t p s)
    (h' : Precedes t p s') :
  s = s'
  := by
  obtain ⟨r, hr, -, hid⟩ := (ht.succeeds h).transferred
  obtain ⟨r', hr', -, hid'⟩ := (ht.succeeds h').transferred
  obtain rfl : r = r' := Option.some.inj (hr.symm.trans hr')
  apply Table.eq_of_key_eq h.2.1 h'.2.1 (Option.some.inj (hid.symm.trans hid'))

/-- An execution has one predecessor at most: the one it names. -/
theorem predecessor_unique {p p' s : ExecutionRow} (h : Precedes t p s) (h' : Precedes t p' s) :
  p = p'
  := by
  apply Table.eq_of_key_eq h.1 h'.1 (Option.some.inj (h.2.2.symm.trans h'.2.2))

/-- The executions of a chain belong to one job. -/
theorem Owned.jobId_eq (ht : Owned t) {p s : ExecutionRow}
    (h : Relation.ReflTransGen (Precedes t) p s) :
  s.execution.val.jobId = p.execution.val.jobId
  := by
  induction h with
  | refl => rfl
  | tail _ h ih => rw [(ht.succeeds h).jobId, ih]

/-! ### Retired executions -/

/-- What remains of a retired row: one that was retired from `RECOVERY_REQUIRED` is
unchanged, and one that completed keeps everything but its revision and the instant of its
last update. -/
structure Keeps (r r' : ExecutionRow) : Prop where
  same : r.execution.val.phase = .recoveryRequired → r' = r
  rest : r'.execution.val = { r.execution.val with
    revision := r'.execution.val.revision
    updatedAt := r'.execution.val.updatedAt }

/-- A row keeps itself. -/
theorem Keeps.refl (r : ExecutionRow) : Keeps r r where
  same _ := rfl
  rest := rfl

/-- A completed row that is revised keeps everything but its revision and the instant of
its last update. -/
theorem keeps_of_progresses {r r' : ExecutionRow} (hretired : r.execution.val.retirement ≠ none)
    (h : Progresses r.execution r'.execution) :
  Keeps r r'
  := by
  have hrec : r.execution.val.phase ≠ .recoveryRequired := by
    intro hphase
    apply not_progresses_of_retired hphase hretired h
  have hcompleted : r.execution.val.phase = .completed := by
    by_contra hne
    apply hretired (MachineExecution.retirement_eq_none hne hrec)
  have hphase : r'.execution.val.phase = .completed := by
    obtain hsame | ⟨-, hne⟩ | ⟨-, action, hedge⟩ := h.phase_cases hrec
    · rw [hsame, hcompleted]
    · apply absurd hcompleted hne
    · rw [hcompleted] at hedge
      have hnone : ∀ intent, (MachinePhase.completed, action, r'.execution.val.phase) ∉
          edgesFor intent := by
        intro intent
        generalize r'.execution.val.phase = result
        cases intent with
        | none => cases action <;> cases result <;> decide
        | some i => cases i <;> cases action <;> cases result <;> decide
      apply absurd hedge (hnone _)
  have hconfirmed : r.execution.val.streamMilestone = .streamConfirmed :=
    MachineExecution.milestone_of_postStream (by simp [hcompleted])
  have hconfirmed' : r'.execution.val.streamMilestone = .streamConfirmed :=
    MachineExecution.milestone_of_postStream (by simp [hphase])
  have hevidence : r.execution.val.recoveryEvidence = none :=
    MachineExecution.evidence_eq_none hrec
  have hevidence' : r'.execution.val.recoveryEvidence = none :=
    MachineExecution.evidence_eq_none (by rw [hphase]; decide)
  have hintent : r'.execution.val.recoveryIntent = r.execution.val.recoveryIntent := by
    by_cases hp : r.execution.val.predecessorExecutionId = none
    · rw [MachineExecution.intent_eq_none hrec hp]
      apply MachineExecution.intent_eq_none
      · rw [hphase]
        decide
      · rw [h.predecessorExecutionId, hp]
    · apply h.intent_of_successor hp
  constructor
  · intro hphase'
    apply absurd hphase' hrec
  · rw [← Database.writeMutable_of_progresses h]
    simp only [Database.writeMutable, hphase, hcompleted, hconfirmed, hconfirmed', hevidence,
      hevidence', hintent, h.retirement hretired]

/-- What remains of what remains of a row is what remains of it. -/
theorem Keeps.trans {a b c : ExecutionRow} (hab : Keeps a b) (hbc : Keeps b c) :
  Keeps a c
  := by
  have hphase : b.execution.val.phase = a.execution.val.phase := by rw [hab.rest]
  constructor
  · intro h
    rw [hbc.same (hphase.trans h), hab.same h]
  · rw [hbc.rest, hab.rest]

/-- A change keeps what remains of a retired row. -/
theorem Change.keeps (h : Change t t') {r : ExecutionRow} (hr : r ∈ t)
    (hretired : r.execution.val.retirement ≠ none) :
  ∃ r' ∈ t', Keeps r r' ∧ r'.execution.val.retirement ≠ none
  := by
  obtain hmem | ⟨r', hr', hprog⟩ := h.mem_or hr
  · use r, hmem, Keeps.refl r
  · use r', hr', keeps_of_progresses hretired hprog
    rw [hprog.retirement hretired]
    apply hretired

/-- Any number of changes keep what remains of a retired row. -/
theorem keeps_of_changes (h : Relation.ReflTransGen Change t t') {r : ExecutionRow} (hr : r ∈ t)
    (hretired : r.execution.val.retirement ≠ none) :
  ∃ r' ∈ t', Keeps r r' ∧ r'.execution.val.retirement ≠ none
  := by
  induction h with
  | refl => use r, hr, Keeps.refl r
  | tail _ hchange ih =>
      obtain ⟨r₁, hr₁, hkeeps₁, hretired₁⟩ := ih
      obtain ⟨r₂, hr₂, hkeeps₂, hretired₂⟩ := hchange.keeps hr₁ hretired₁
      use r₂, hr₂, hkeeps₁.trans hkeeps₂

end Executions

end DrawingMachine
