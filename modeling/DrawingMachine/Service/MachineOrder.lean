import DrawingMachine.Base.Numbering
import DrawingMachine.Service.MachineAgreement

/-!
# The order of the machine commands

Envelopes are numbered in the order of their submission. In this order their commands are passed
to the chain, admitted and driven, whatever the threads do meanwhile.
-/

namespace DrawingMachine

namespace MachineCoordinator

variable {ρ ε : Type} {timeout : Int} {stoppedError withdrawnError : ε} {s s' : State ρ ε}

/-! ### The order of the commands -/

/-- The envelope of an item. -/
def Item.envelope? : Item → Option Nat
  | .envelope e => some e
  | .stop => none

/-- The envelope that the thread has taken, and has not passed to the chain. -/
def Thread.taken : Thread ρ ε → Option Nat
  | .received e => some e
  | .claimed e => some e
  | _ => none

/-- The envelopes that were passed to the chain, the one that the thread has taken, and those
in the mailbox, in this order. -/
def line (s : State ρ ε) : List Nat :=
  s.passed.reverse ++ (s.thread.taken.toList ++ s.mailbox.filterMap Item.envelope?)

/-- An envelope that leaves the line does not change the order of the others. -/
theorem line_sublist (hpassed : s'.passed = s.passed) (hmailbox : s'.mailbox.Sublist s.mailbox)
    (htaken : s'.thread.taken = s.thread.taken ∨ s'.thread.taken = none) :
  (line s').Sublist (line s)
  := by
  unfold line
  rw [hpassed]
  apply List.Sublist.append_left
  apply List.Sublist.append
  · rcases htaken with htaken | htaken
    · rw [htaken]
    · rw [htaken]
      apply List.nil_sublist
  · apply hmailbox.filterMap

/-- The thread goes on, and takes nothing. -/
theorem taken_goto_none (s : State ρ ε) {t : Thread ρ ε} (ht : t.taken = none) :
  (s.goto t).thread.taken = s.thread.taken ∨ (s.goto t).thread.taken = none
  := .inr ht

/-- A step puts at most a new envelope to the end of the line. -/
theorem Step.line (h : Step timeout stoppedError withdrawnError s s') :
  (line s').Sublist (line s) ∧ s'.count = s.count ∨
    line s' = line s ++ [s.count] ∧ s'.count = s.count + 1
  := by
  cases h with
  | submit i observed deadline h hlock haccepting =>
      right
      simp [MachineCoordinator.line, Item.envelope?]
  | get e mailbox h hmailbox =>
      left
      simp [MachineCoordinator.line, State.goto, h, hmailbox, Thread.taken, Item.envelope?]
  | pass e h =>
      left
      simp [MachineCoordinator.line, State.goto, h, Thread.taken]
  | claim e h hlock hstopping =>
      left
      refine ⟨line_sublist rfl (List.Sublist.refl _) ?_, rfl⟩
      split
      · left
        simp [State.goto, Thread.taken, h]
      · right
        rfl
  | stopGet e mailbox h hmailbox =>
      left
      refine ⟨line_sublist rfl ?_ (.inl rfl), rfl⟩
      simp [hmailbox]
  | stopSkip mailbox h hmailbox =>
      left
      refine ⟨line_sublist rfl ?_ (.inl rfl), rfl⟩
      simp [hmailbox]
  | stopPut h hmailbox halive =>
      left
      simp [MachineCoordinator.line, hmailbox, Item.envelope?]
  | getStop mailbox h hmailbox =>
      left
      refine ⟨line_sublist rfl ?_ (.inr rfl), rfl⟩
      simp [hmailbox]
  | drainGet e mailbox h hmailbox =>
      left
      refine ⟨line_sublist rfl ?_ (.inr rfl), rfl⟩
      simp [hmailbox]
  | drainSkip mailbox h hmailbox =>
      left
      refine ⟨line_sublist rfl ?_ (.inl rfl), rfl⟩
      simp [hmailbox]
  | unclaimed h hlock =>
      left
      refine ⟨line_sublist rfl (List.Sublist.refl _) ?_, rfl⟩
      right
      change (if s.stopping then Thread.rejecting none else Thread.waiting).taken = none
      split <;> rfl
  | check e n h =>
      left
      refine ⟨line_sublist rfl (List.Sublist.refl _) (.inr ?_), rfl⟩
      simp only [State.goto]
      split <;> rfl
  | fail e error fatal h =>
      left
      refine ⟨line_sublist rfl (List.Sublist.refl _) (.inr ?_), rfl⟩
      simp only [State.goto]
      split <;> rfl
  | _ =>
      left
      exact ⟨line_sublist rfl (List.Sublist.refl _) (by first | exact .inl rfl | exact .inr rfl),
        rfl⟩

/-- The envelope whose command the chain is asked to admit. -/
def Thread.unadmitted : Thread ρ ε → Option Nat
  | .admitting e _ => some e
  | _ => none

/-- The envelope whose command may be driven later. -/
def Thread.undriven : Thread ρ ε → Option Nat
  | .admitting e _ => some e
  | .admitted e _ _ => some e
  | .acknowledged e _ => some e
  | _ => none

/-- What was admitted and what was driven, in the order in which it was passed to the chain; the
command at hand is the last one that was passed. -/
structure Served (s : State ρ ε) : Prop where
  admitted : (s.admissions.map Prod.fst).Sublist s.passed
  driven : s.driven.Sublist s.passed
  unadmitted : ∀ e ∈ s.thread.unadmitted, ∃ rest, s.passed = e :: rest ∧
    (s.admissions.map Prod.fst).Sublist rest
  undriven : ∀ e ∈ s.thread.undriven, ∃ rest, s.passed = e :: rest ∧ s.driven.Sublist rest

/-- A step that passes, admits and drives nothing. -/
theorem Served.frame (hs : Served s) (hpassed : s'.passed = s.passed)
    (hadmissions : s'.admissions = s.admissions) (hdriven : s'.driven = s.driven)
    (hunadmitted : s'.thread.unadmitted = s.thread.unadmitted ∨ s'.thread.unadmitted = none)
    (hundriven : s'.thread.undriven = s.thread.undriven ∨ s'.thread.undriven = none) :
  Served s'
  := by
  constructor
  · rw [hadmissions, hpassed]
    apply hs.admitted
  · rw [hdriven, hpassed]
    apply hs.driven
  · rw [hadmissions, hpassed]
    rcases hunadmitted with h | h
    · rw [h]
      apply hs.unadmitted
    · rw [h]
      nofun
  · rw [hdriven, hpassed]
    rcases hundriven with h | h
    · rw [h]
      apply hs.undriven
    · rw [h]
      nofun

/-- Every step keeps the order of what is admitted and driven. -/
theorem Served.step (hs : Served s) (h : Step timeout stoppedError withdrawnError s s') :
  Served s'
  := by
  cases h with
  | pass e h =>
      constructor
      · apply hs.admitted.cons
      · apply hs.driven.cons
      · rintro _ ⟨⟩
        use s.passed, rfl, hs.admitted
      · rintro _ ⟨⟩
        use s.passed, rfl, hs.driven
  | commit e n result drives h hchecks =>
      obtain ⟨rest, hpassed, hsub⟩ := hs.unadmitted e (by rw [h]; rfl)
      constructor
      · change (e :: s.admissions.map Prod.fst).Sublist s.passed
        rw [hpassed]
        apply hsub.cons_cons
      · apply hs.driven
      · nofun
      · rintro _ ⟨⟩
        apply hs.undriven e
        rw [h]
        rfl
  | drive e h =>
      obtain ⟨rest, hpassed, hsub⟩ := hs.undriven e (by rw [h]; rfl)
      constructor
      · apply hs.admitted
      · change (e :: s.driven).Sublist s.passed
        rw [hpassed]
        apply hsub.cons_cons
      · nofun
      · nofun
  | acknowledge e result drives h =>
      refine hs.frame rfl rfl rfl (.inr rfl) ?_
      left
      simp [State.goto, h, Thread.undriven]
  | check e n h =>
      refine hs.frame rfl rfl rfl ?_ ?_
      · simp only [State.goto, h]
        split
        · left
          rfl
        · right
          rfl
      · simp only [State.goto, h]
        split
        · left
          rfl
        · right
          rfl
  | claim e h hlock hstopping =>
      refine hs.frame rfl rfl rfl ?_ ?_
      · right
        simp only [State.goto]
        split <;> rfl
      · right
        simp only [State.goto]
        split <;> rfl
  | fail e error fatal h =>
      refine hs.frame rfl rfl rfl ?_ ?_
      · right
        simp only [State.goto]
        split <;> rfl
      · right
        simp only [State.goto]
        split <;> rfl
  | unclaimed h hlock =>
      refine hs.frame rfl rfl rfl ?_ ?_
      · right
        simp only [State.goto]
        split <;> rfl
      · right
        simp only [State.goto]
        split <;> rfl
  | _ =>
      refine hs.frame rfl rfl rfl ?_ ?_
      · first | exact .inl rfl | exact .inr rfl
      · first | exact .inl rfl | exact .inr rfl

/-- Every run keeps the order. -/
theorem Reachable.inOrder (h : Reachable timeout stoppedError withdrawnError s) :
  Numbered s.count (line s) ∧ Served s
  := by
  obtain ⟨clock, hrun⟩ := h
  induction hrun with
  | refl =>
      constructor
      · apply Numbered.nil
      · constructor
        · apply List.Sublist.refl
        · apply List.Sublist.refl
        · nofun
        · nofun
  | tail _ hstep ih => exact ⟨ih.1.step hstep.line, ih.2.step hstep⟩

/-- In every state that a run of the submitters, the coordinator, `stop` and the clock reaches,
the commands were passed to the chain in the order of their submission, before every command
that still lies in the mailbox, and they were admitted and driven in the same order. -/
theorem commands_in_order (h : Reachable timeout stoppedError withdrawnError s) :
  s.passed.reverse.Pairwise (· < ·) ∧
    (∀ e ∈ s.passed, ∀ e', .envelope e' ∈ s.mailbox → e < e') ∧
    ((s.admissions.map Prod.fst).reverse).Sublist s.passed.reverse ∧
    s.driven.reverse.Sublist s.passed.reverse ∧
    (s.mailbox.filterMap Item.envelope?).Pairwise (· < ·)
  := by
  obtain ⟨horder, hserved⟩ := h.inOrder
  refine ⟨horder.front.increasing, ?_, hserved.admitted.reverse, hserved.driven.reverse,
    horder.back.back.increasing⟩
  intro e he e' he'
  apply horder.before (List.mem_reverse.mpr he)
  apply List.mem_append_right
  rw [List.mem_filterMap]
  use .envelope e', he'
  rfl

/-- The order in a run in which a call times out and its command is driven. -/
theorem commands_in_order_sample :
  ∃ s : State Nat String, Reachable 5 "stopped" "withdrawn" s ∧ s.driven = [0] ∧
    s.driven.reverse.Sublist s.passed.reverse
  := by
  obtain ⟨s, s', ⟨clock, hrun⟩, hsteps, -, -, hdriven⟩ := exists_driven_after_timeout
  have hreachable : Reachable 5 "stopped" "withdrawn" s' := ⟨clock, hrun.trans hsteps⟩
  obtain ⟨-, -, -, hsublist, -⟩ := commands_in_order hreachable
  exact ⟨s', hreachable, hdriven, hsublist⟩

end MachineCoordinator

end DrawingMachine
