import DrawingMachine.Base.Chain
import DrawingMachine.Machine.Execution

/-!
# Chains of revisions

What one accepted step from a revision to the next can do, and what therefore holds along
every chain of revisions that starts with a fresh execution.

* `Progresses` is the relation between consecutive revisions; the lemmas after it say
  what an accepted step establishes, and `Progresses.phase_cases` what it can do to the
  phase.
* `RevisionChain` is a chain of revisions from a fresh execution, and
  `RevisionChain.Invariant` collects what every such chain keeps.
-/

namespace DrawingMachine

/-- The value `successor` is accepted as the revision after `prior`. -/
def Progresses (prior successor : MachineExecution) : Prop :=
  ensureRevisionProgression prior successor = .ok ()

instance (prior successor : MachineExecution) : Decidable (Progresses prior successor) :=
  inferInstanceAs (Decidable (_ = _))

namespace Progresses

variable {prior successor : MachineExecution}

/-! ### What an accepted step establishes -/

/-- The checks on identity, time and permanent fields pass. -/
theorem binding (h : Progresses prior successor) :
  checkBindingProgression prior successor = .ok ()
  := by
  simp only [Progresses, ensureRevisionProgression, Except.unit_bind_eq_ok_iff] at h
  exact h.1

/-- A step keeps the identity of the execution. -/
theorem executionId (h : Progresses prior successor) :
  successor.val.executionId = prior.val.executionId
  := by
  have hb := h.binding
  simp only [checkBindingProgression, Except.unit_bind_eq_ok_iff, rejectIf_eq_ok_iff,
    not_or, not_not] at hb
  exact hb.1.1

/-- A step adds one to the revision. -/
theorem revision (h : Progresses prior successor) :
  successor.val.revision = prior.val.revision + 1
  := by
  have hb := h.binding
  simp only [checkBindingProgression, Except.unit_bind_eq_ok_iff, rejectIf_eq_ok_iff,
    not_or, not_not, ne_eq] at hb
  exact hb.1.2

/-- A step keeps the instant of creation. -/
theorem createdAt (h : Progresses prior successor) :
  successor.val.createdAt = prior.val.createdAt
  := by
  have hb := h.binding
  simp only [checkBindingProgression, Except.unit_bind_eq_ok_iff, rejectIf_eq_ok_iff,
    not_or, not_not, ne_eq] at hb
  exact hb.2.1.1

/-- A step does not go back in time. -/
theorem updatedAt (h : Progresses prior successor) :
  prior.val.updatedAt ≤ successor.val.updatedAt
  := by
  have hb := h.binding
  simp only [checkBindingProgression, Except.unit_bind_eq_ok_iff, rejectIf_eq_ok_iff,
    not_or, not_not, ne_eq] at hb
  exact Int.not_lt.mp hb.2.1.2

/-- A step keeps the permanent fields. -/
theorem permanentBindings (h : Progresses prior successor) :
  successor.val.permanentBindings = prior.val.permanentBindings
  := by
  have hb := h.binding
  simp only [checkBindingProgression, Except.unit_bind_eq_ok_iff, rejectIf_eq_ok_iff,
    not_not, ne_eq] at hb
  exact hb.2.2.1

/-- A step keeps the predecessor. -/
theorem predecessorExecutionId (h : Progresses prior successor) :
  successor.val.predecessorExecutionId = prior.val.predecessorExecutionId
  := congrArg PermanentBindings.predecessorExecutionId h.permanentBindings

/-- A retirement recorded by a step lies within the step. -/
theorem retiredAt (h : Progresses prior successor) {r : OwnerRetirementEvidence}
    (hr : successor.val.retirement = some r) :
  prior.val.updatedAt ≤ r.val.retiredAt ∧ r.val.retiredAt ≤ successor.val.updatedAt
  := by
  have hb := h.binding
  simp only [checkBindingProgression, Except.unit_bind_eq_ok_iff, checkSome_eq_ok_iff,
    rejectIf_eq_ok_iff, not_not] at hb
  exact hb.2.2.2.1 r hr

/-- A retirement is permanent. -/
theorem retirement (h : Progresses prior successor) (hr : prior.val.retirement ≠ none) :
  successor.val.retirement = prior.val.retirement
  := by
  have hb := h.binding
  simp only [checkBindingProgression, Except.unit_bind_eq_ok_iff, rejectIf_eq_ok_iff] at hb
  by_contra hne
  exact hb.2.2.2.2 ⟨hr, hne⟩

/-! ### A step out of recovery -/

/-- The checks on a retirement pass for a step from `RECOVERY_REQUIRED`. -/
theorem retirementProgression (h : Progresses prior successor)
    (hp : prior.val.phase = .recoveryRequired) :
  checkRetirementProgression prior successor = .ok ()
  := by
  simp only [Progresses, ensureRevisionProgression, Except.unit_bind_eq_ok_iff, hp,
    if_true] at h
  exact h.2

/-- A step from `RECOVERY_REQUIRED` stays there, with the milestone, the intent and the
evidence frozen. -/
theorem frozen (h : Progresses prior successor) (hp : prior.val.phase = .recoveryRequired) :
  successor.val.phase = .recoveryRequired ∧
    successor.val.streamMilestone = prior.val.streamMilestone ∧
    successor.val.recoveryIntent = prior.val.recoveryIntent ∧
    successor.val.recoveryEvidence = prior.val.recoveryEvidence
  := by
  have hr := h.retirementProgression hp
  simp only [checkRetirementProgression, Except.unit_bind_eq_ok_iff, rejectIf_eq_ok_iff,
    not_or, not_not, ne_eq] at hr
  exact hr.1

/-- A step from `RECOVERY_REQUIRED` is its retirement. -/
theorem retires (h : Progresses prior successor) (hp : prior.val.phase = .recoveryRequired) :
  prior.val.retirement = none ∧ successor.val.retirement ≠ none
  := by
  have hr := h.retirementProgression hp
  simp only [checkRetirementProgression, Except.unit_bind_eq_ok_iff, rejectIf_eq_ok_iff,
    not_or, not_not, ne_eq] at hr
  exact hr.2

/-! ### A step before recovery -/

/-- The checks on milestone, completion, intent and phase pass for a step from another
phase. -/
theorem ordinary (h : Progresses prior successor) (hp : prior.val.phase ≠ .recoveryRequired) :
  allowedStreamMilestoneTransition prior.val.streamMilestone successor.val.streamMilestone
      = true ∧
    checkIntentProgression prior successor = .ok () ∧
    checkPhaseProgression prior successor = .ok ()
  := by
  simp only [Progresses, ensureRevisionProgression, Except.unit_bind_eq_ok_iff, hp,
    if_false, rejectIf_eq_ok_iff, Bool.not_eq_false] at h
  exact ⟨h.2.1, h.2.2.2⟩

/-- The milestone stays or advances by one. -/
theorem milestone (h : Progresses prior successor) :
  successor.val.streamMilestone.order = prior.val.streamMilestone.order ∨
    successor.val.streamMilestone.order = prior.val.streamMilestone.order + 1
  := by
  by_cases hp : prior.val.phase = .recoveryRequired
  · left
    rw [(h.frozen hp).2.1]
  · simpa [allowedStreamMilestoneTransition] using (h.ordinary hp).1

/-- The intent of a successor execution is frozen. -/
theorem intent_of_successor (h : Progresses prior successor)
    (hs : prior.val.predecessorExecutionId ≠ none) :
  successor.val.recoveryIntent = prior.val.recoveryIntent
  := by
  by_cases hp : prior.val.phase = .recoveryRequired
  · exact (h.frozen hp).2.2.1
  · have hi := (h.ordinary hp).2.1
    simp only [checkIntentProgression, hs, ne_eq, not_false_eq_true, if_true,
      rejectIf_eq_ok_iff, not_not] at hi
    exact hi

/-- The edges open to an execution. -/
def edges (e : MachineExecution) : List (MachinePhase × MachineAction × MachinePhase) :=
  edgesFor (if e.val.predecessorExecutionId ≠ none then e.val.recoveryIntent else none)

/-- A step keeps the phase, enters recovery before completion, or follows an edge. -/
theorem phase_cases (h : Progresses prior successor) (hp : prior.val.phase ≠ .recoveryRequired) :
  successor.val.phase = prior.val.phase ∨
    (successor.val.phase = .recoveryRequired ∧ prior.val.phase ≠ .completed) ∨
    (successor.val.phase ≠ .recoveryRequired ∧
      ∃ action, (prior.val.phase, action, successor.val.phase) ∈ edges prior)
  := by
  have hc := (h.ordinary hp).2.2
  unfold checkPhaseProgression at hc
  split at hc
  · left
    assumption
  · split at hc
    · rename_i hrec
      right
      left
      simp only [rejectIf_eq_ok_iff, List.mem_cons, List.not_mem_nil, or_false, not_or] at hc
      exact ⟨hrec, hc.2⟩
    · rename_i hrec
      right
      right
      rw [rejectIf_eq_ok_iff, not_not, List.any_eq_true] at hc
      obtain ⟨action, _, ha⟩ := hc
      exact ⟨hrec, action, of_decide_eq_true ha⟩

/-- An execution that may draw reaches a phase after the stream only from `STREAMING` or
from another such phase. -/
theorem prior_of_postStream (h : Progresses prior successor)
    (hnot : prior.val.isSafeHomeSuccessor = false)
    (hs : successor.val.phase ∈ [MachinePhase.awaitingHomeZApproval, .homingZ, .completed]) :
  prior.val.phase = .streaming ∨
    prior.val.phase ∈ [MachinePhase.awaitingHomeZApproval, .homingZ, .completed]
  := by
  have hrec : prior.val.phase ≠ .recoveryRequired := by
    intro hp
    rw [(h.frozen hp).1] at hs
    simp at hs
  obtain hsame | ⟨hs', _⟩ | ⟨_, action, hedge⟩ := h.phase_cases hrec
  · right
    rwa [← hsame]
  · rw [hs'] at hs
    simp at hs
  · generalize successor.val.phase = result at hs hedge
    generalize prior.val.phase = phase at hedge
    have hnormal : (phase, action, result) ∈ normalEdges := by
      unfold edges at hedge
      split at hedge
      · rename_i hp
        cases hi : prior.val.recoveryIntent with
        | none =>
            rw [hi] at hedge
            exact hedge
        | some intent =>
            rw [hi] at hedge
            cases intent with
            | preStreamRestart => exact hedge
            | streamAmbiguousReleaseOnly => cases hedge
            | postStreamSafeHome =>
                simp [MachineExecution.Fields.isSafeHomeSuccessor, hp, hi] at hnot
      · exact hedge
    cases phase <;> cases action <;> cases result <;> revert hs hnormal <;> decide

end Progresses

/-! ### Chains of revisions -/

/-- A chain of revisions of one execution. Its first value is fresh: revision 0 in
`PREPARING_SESSION`, be it an initial execution or a successor of either kind. -/
structure RevisionChain where
  values : List MachineExecution
  chained : values.IsChain Progresses
  fresh : ∀ e, values[0]? = some e → e.val.revision = 0 ∧ e.val.phase = .preparingSession

namespace RevisionChain

variable (c : RevisionChain)

/-- The value `e` stands at position `i` of the chain. -/
abbrev At (i : Nat) (e : MachineExecution) : Prop :=
  c.values[i]? = some e

/-- The chain is that of a successor which only homes the machine after a confirmed
stream. -/
def IsSafeHome : Prop :=
  ∃ e, c.At 0 e ∧ e.val.isSafeHomeSuccessor = true

/-- The phases of calibration, its confirmation, and streaming. -/
def drawingPhases : List MachinePhase :=
  [.awaitingZcalApproval, .zCalibrating, .awaitingZconfirmApproval, .zConfirming,
    .awaitingStreamApproval, .streaming]

/-- What every chain of revisions keeps. -/
structure Invariant : Prop where
  /-- Revisions are consecutive, from 0. -/
  revision : ∀ i e, c.At i e → e.val.revision = i
  /-- The milestone never decreases and never skips. -/
  milestone : ∀ i a b, c.At i a → c.At (i + 1) b →
    b.val.streamMilestone.order = a.val.streamMilestone.order ∨
      b.val.streamMilestone.order = a.val.streamMilestone.order + 1
  /-- The identity and the permanent fields are constant. -/
  bindings : ∀ i j a b, c.At i a → c.At j b →
    b.val.executionId = a.val.executionId ∧ b.val.createdAt = a.val.createdAt ∧
      b.val.permanentBindings = a.val.permanentBindings
  /-- `RECOVERY_REQUIRED` is left by nothing, and the only revision after it is its
  retirement. -/
  recovery : ∀ i j a b, c.At i a → c.At j b → i < j → a.val.phase = .recoveryRequired →
    j = i + 1 ∧ b.val.phase = .recoveryRequired ∧ a.val.retirement = none ∧
      b.val.retirement ≠ none
  /-- A completed value carries the confirmed stream. -/
  completed : ∀ i e, c.At i e → e.val.phase = .completed →
    e.val.streamMilestone = .streamConfirmed
  /-- An execution that may draw completes only through `STREAMING`. -/
  streaming : ¬ c.IsSafeHome → ∀ j b, c.At j b → b.val.phase = .completed →
    ∃ i a, i < j ∧ c.At i a ∧ a.val.phase = .streaming
  /-- A successor that only homes the machine never calibrates or streams. -/
  safeHome : c.IsSafeHome → ∀ i e, c.At i e → e.val.phase ∉ drawingPhases

variable {c}

/-- The revisions of a chain are consecutive. -/
theorem revision_eq {i : Nat} {e : MachineExecution} (he : c.At i e) :
  e.val.revision = i
  := by
  induction i generalizing e with
  | zero => exact (c.fresh e he).1
  | succ i ih =>
      obtain ⟨a, ha⟩ := List.IsChain.exists_getElem?_of_le (Nat.le_succ i) he
      rw [(c.chained.rel_getElem? ha he).revision, ih ha]

/-- Along a chain the identity and the permanent fields are constant. -/
theorem bindings_eq {i : Nat} {first e : MachineExecution} (hfirst : c.At 0 first)
    (he : c.At i e) :
  e.val.executionId = first.val.executionId ∧ e.val.createdAt = first.val.createdAt ∧
    e.val.permanentBindings = first.val.permanentBindings
  := by
  apply c.chained.invariant (P := fun e => e.val.executionId = first.val.executionId ∧
    e.val.createdAt = first.val.createdAt ∧
    e.val.permanentBindings = first.val.permanentBindings) _ _ he
  · intro a ha
    obtain rfl : first = a := Option.some.inj (hfirst.symm.trans ha)
    exact ⟨rfl, rfl, rfl⟩
  · rintro a b ⟨hid, hcreated, hbind⟩ hab
    exact ⟨hab.executionId.trans hid, hab.createdAt.trans hcreated,
      hab.permanentBindings.trans hbind⟩

/-- Along a chain it does not change whether the execution only homes the machine. An
initial execution never does, and the intent of a successor is frozen. -/
theorem isSafeHomeSuccessor_eq {i : Nat} {first e : MachineExecution}
    (hfirst : c.At 0 first) (he : c.At i e) :
  e.val.isSafeHomeSuccessor = first.val.isSafeHomeSuccessor
  := by
  apply c.chained.invariant
    (P := fun e => e.val.isSafeHomeSuccessor = first.val.isSafeHomeSuccessor) _ _ he
  · intro a ha
    obtain rfl : first = a := Option.some.inj (hfirst.symm.trans ha)
    rfl
  · intro a b ha hab
    rw [← ha]
    simp only [MachineExecution.Fields.isSafeHomeSuccessor, hab.predecessorExecutionId]
    by_cases hp : a.val.predecessorExecutionId = none
    · simp [hp]
    · rw [hab.intent_of_successor hp]

/-- The only revision after `RECOVERY_REQUIRED` is its retirement. -/
theorem eq_succ_of_recovery {i j : Nat} {a b : MachineExecution} (ha : c.At i a)
    (hb : c.At j b) (hij : i < j) (hphase : a.val.phase = .recoveryRequired) :
  j = i + 1
  := by
  by_contra hne
  obtain ⟨x, hx⟩ := List.IsChain.exists_getElem?_of_le (show i + 1 ≤ j by omega) hb
  obtain ⟨y, hy⟩ := List.IsChain.exists_getElem?_of_le (show i + 2 ≤ j by omega) hb
  have hax := c.chained.rel_getElem? ha hx
  have hxy := c.chained.rel_getElem? hx hy
  exact (hax.retires hphase).2 (hxy.retires (hax.frozen hphase).1).1

/-- A chain that may draw reaches a phase after the stream only through `STREAMING`. -/
theorem exists_streaming (hdraw : ¬ c.IsSafeHome) {j : Nat} {b : MachineExecution}
    (hb : c.At j b)
    (hphase : b.val.phase ∈ [MachinePhase.awaitingHomeZApproval, .homingZ, .completed]) :
  ∃ i a, i < j ∧ c.At i a ∧ a.val.phase = .streaming
  := by
  induction j generalizing b with
  | zero =>
      rw [(c.fresh b hb).2] at hphase
      simp at hphase
  | succ j ih =>
      obtain ⟨first, hfirst⟩ := List.IsChain.exists_getElem?_of_le (Nat.zero_le _) hb
      obtain ⟨a, ha⟩ := List.IsChain.exists_getElem?_of_le (Nat.le_succ j) hb
      have hnot : a.val.isSafeHomeSuccessor = false := by
        rw [isSafeHomeSuccessor_eq hfirst ha]
        by_contra h
        exact hdraw ⟨first, hfirst, (Bool.not_eq_false _).mp h⟩
      obtain hs | hs := (c.chained.rel_getElem? ha hb).prior_of_postStream hnot hphase
      · exact ⟨j, a, Nat.lt_succ_self j, ha, hs⟩
      · obtain ⟨i, x, hij, hx, hxs⟩ := ih ha hs
        exact ⟨i, x, Nat.lt_succ_of_lt hij, hx, hxs⟩

/-- A chain of a successor that only homes the machine stays out of the drawing phases. -/
theorem phase_notMem_drawingPhases (hsafe : c.IsSafeHome) {i : Nat} {e : MachineExecution}
    (he : c.At i e) :
  e.val.phase ∉ drawingPhases
  := by
  obtain ⟨first, hfirst, hflag⟩ := hsafe
  rw [← isSafeHomeSuccessor_eq hfirst he] at hflag
  by_cases hr : e.val.phase = .recoveryRequired
  · rw [hr]
    decide
  · have hphase := MachineExecution.phase_of_safeHome hflag hr
    revert hphase
    generalize e.val.phase = phase
    cases phase <;> decide

/-- Every chain of revisions keeps the invariant. -/
theorem invariant_holds (c : RevisionChain) :
  c.Invariant
  where
  revision _ _ he := revision_eq he
  milestone _ _ _ ha hb := (c.chained.rel_getElem? ha hb).milestone
  bindings := by
    intro i j a b ha hb
    obtain ⟨first, hfirst⟩ := List.IsChain.exists_getElem?_of_le (Nat.zero_le _) ha
    obtain ⟨hida, hca, hba⟩ := bindings_eq hfirst ha
    obtain ⟨hidb, hcb, hbb⟩ := bindings_eq hfirst hb
    exact ⟨hidb.trans hida.symm, hcb.trans hca.symm, hbb.trans hba.symm⟩
  recovery := by
    intro i j a b ha hb hij hphase
    obtain rfl := eq_succ_of_recovery ha hb hij hphase
    have hab := c.chained.rel_getElem? ha hb
    exact ⟨rfl, (hab.frozen hphase).1, hab.retires hphase⟩
  completed := by
    intro i e _ hphase
    apply MachineExecution.milestone_of_postStream
    simp [hphase]
  streaming hdraw _ _ hb hphase := exists_streaming hdraw hb (by simp [hphase])
  safeHome hsafe _ _ he := phase_notMem_drawingPhases hsafe he

end RevisionChain

end DrawingMachine
