import DrawingMachine.Base.Interaction

/-!
# Pre- and postconditions of interactions

What is true of a program that interacts with a device when it is started in a state of a
certain kind: it is finished after the rounds its loops are given, each of its events is of a
certain kind, and when it returns, its value and the state it leaves satisfy a postcondition.
There is a rule for each way of putting programs together; the rule for loops asks for an
invariant, and for a measure that gets smaller with every round.
-/

universe u v w

namespace Interaction

variable {σ : Type u} {ε : Type v} {α β : Type w}

/-- Started in a state with the precondition, the program is finished, makes events of the given
kind, and returns with the postcondition. -/
structure Meets (P : σ → Prop) (x : Interaction σ ε α) (E : ε → Prop) (Q : α → σ → Prop) : Prop
    where
  finished : ∀ s, P s → ∀ events, x s ≠ .unfinished events
  events : ∀ s, P s → ∀ e ∈ (x s).events, E e
  returned : ∀ s, P s → ∀ events a s', x s = .done events a s' → Q a s'

namespace Meets

variable {P : σ → Prop} {E : ε → Prop} {Q : α → σ → Prop} {R : β → σ → Prop}

/-- The precondition may be strengthened, and the postcondition weakened. -/
theorem conseq {P' : σ → Prop} {Q' : α → σ → Prop} {x : Interaction σ ε α} (h : Meets P x E Q)
    (hP : ∀ s, P' s → P s) (hQ : ∀ a s, Q a s → Q' a s) :
  Meets P' x E Q'
  := by
  constructor
  · intro s hs
    apply h.finished s (hP s hs)
  · intro s hs
    apply h.events s (hP s hs)
  · intro s hs events a s' hdone
    apply hQ
    apply h.returned s (hP s hs) events a s' hdone

/-- The precondition may be strengthened. -/
theorem strengthen {P' : σ → Prop} {x : Interaction σ ε α} (h : Meets P x E Q)
    (hP : ∀ s, P' s → P s) :
  Meets P' x E Q
  := h.conseq hP fun _ _ hQ => hQ

/-- The postcondition may be weakened. -/
theorem weaken {Q' : α → σ → Prop} {x : Interaction σ ε α} (h : Meets P x E Q)
    (hQ : ∀ a s, Q a s → Q' a s) :
  Meets P x E Q'
  := h.conseq (fun _ hP => hP) hQ

/-- Nothing has to be shown about states that there are not. -/
theorem of_false {x : Interaction σ ε α} (h : ∀ s, ¬ P s) : Meets P x E Q := by
  constructor
  · intro s hs
    exact absurd hs (h s)
  · intro s hs
    exact absurd hs (h s)
  · intro s hs
    exact absurd hs (h s)

/-- A returned value. -/
theorem pure {a : α} (h : ∀ s, P s → Q a s) : Meets P (pure a : Interaction σ ε α) E Q := by
  constructor
  · intro s _ events hrun
    cases hrun
  · intro s _ e he
    cases he
  · intro s hs events a' s' hdone
    obtain ⟨-, rfl, rfl⟩ := pure_eq_done_iff.mp hdone
    apply h s hs

/-- A program followed by another one. -/
theorem bind {x : Interaction σ ε α} {f : α → Interaction σ ε β} (hx : Meets P x E Q)
    (hf : ∀ a, Meets (Q a) (f a) E R) :
  Meets P (x >>= f) E R
  := by
  constructor
  · intro s hs events hrun
    change andThen x f s = _ at hrun
    unfold andThen at hrun
    cases hdone : x s with
    | escaped before =>
        rw [hdone] at hrun
        cases hrun
    | unfinished before => apply hx.finished s hs before hdone
    | done before a s' =>
        have hQ := hx.returned s hs before a s' hdone
        rw [hdone] at hrun
        simp only at hrun
        cases hrest : f a s' with
        | escaped after =>
            rw [hrest] at hrun
            cases hrun
        | unfinished after => apply (hf a).finished s' hQ after hrest
        | done after b s'' =>
            rw [hrest] at hrun
            cases hrun
  · intro s hs e he
    have hfront := hx.events s hs
    rcases events_bind x f s with ⟨before, a, s', hdone, hevents⟩ | hevents
    · rw [hevents, List.mem_append] at he
      rw [hdone] at hfront
      rcases he with he | he
      · apply hfront e he
      · apply (hf a).events s' (hx.returned s hs before a s' hdone) e he
    · rw [hevents] at he
      apply hfront e he
  · intro s hs events b s' hdone
    obtain ⟨before, a, s₁, after, h₁, h₂, -⟩ := bind_eq_done_iff.mp hdone
    apply (hf a).returned s₁ (hx.returned s hs before a s₁ h₁) after b s' h₂

/-- An interaction. -/
theorem perform {f : σ → α × σ} (h : ∀ s, P s → Q (f s).1 (f s).2) :
  Meets P (Interaction.perform f) E Q
  := by
  constructor
  · intro s _ events hrun
    cases hrun
  · intro s _ e he
    cases he
  · intro s hs events a s' hdone
    cases hdone
    apply h s hs

/-- An interaction that may raise an exception. -/
theorem attempt {raised : ε} {f : σ → Option α × σ} (hraised : E raised)
    (h : ∀ s a, P s → (f s).1 = some a → Q a (f s).2) :
  Meets P (Interaction.attempt raised f) E Q
  := by
  constructor
  · intro s _ events hrun
    unfold Interaction.attempt at hrun
    split at hrun <;> cases hrun
  · intro s _ e he
    unfold Interaction.attempt at he
    split at he
    · cases he
    · cases List.mem_singleton.mp he
      exact hraised
  · intro s hs events a s' hdone
    unfold Interaction.attempt at hdone
    split at hdone
    · next a' s'' heq =>
        cases hdone
        have hQ := h s a hs (by rw [heq])
        rwa [heq] at hQ
    · cases hdone

/-- An escape. -/
theorem escape {e : ε} (h : E e) : Meets P (Interaction.escape e : Interaction σ ε α) E Q := by
  constructor
  · intro s _ events hrun
    cases hrun
  · intro s _ e' he
    cases List.mem_singleton.mp he
    exact h
  · intro s _ events a s' hdone
    cases hdone

/-- An event, which may depend on the state. -/
theorem recordOf {e : σ → ε} {a : α} (he : ∀ s, P s → E (e s)) (h : ∀ s, P s → Q a s) :
  Meets P (fun s => .done [e s] a s) E Q
  := by
  constructor
  · intro s _ events hrun
    cases hrun
  · intro s hs e' hmem
    cases List.mem_singleton.mp hmem
    apply he s hs
  · intro s hs events a' s' hdone
    cases hdone
    apply h s hs

/-- What a round of a loop has to establish: the invariant with a smaller measure, or the
postcondition of the loop. -/
def Round (I : β → σ → Prop) (m : β → Nat) (Q : α → σ → Prop) (b : β) : β ⊕ α → σ → Prop
  | .inl b', s => I b' s ∧ m b' < m b
  | .inr a, s => Q a s

/-- A loop whose rounds keep an invariant and make a measure smaller is finished after as many
rounds as the measure says, and one more. -/
theorem iterate {step : β → Interaction σ ε (β ⊕ α)} {I : β → σ → Prop} {m : β → Nat}
    (hstep : ∀ b, Meets (I b) (step b) E (Round I m Q b)) {n : Nat} {b : β}
    (hn : m b < n) :
  Meets (I b) (Interaction.iterate step n b) E Q
  := by
  induction n generalizing b with
  | zero => cases hn
  | succ n ih =>
      change Meets _ (step b >>= _) _ _
      apply bind (hstep b)
      intro r
      cases r with
      | inl b' =>
          -- The measure is a fact about the value, not about the state.
          by_cases hlt : m b' < m b
          · apply (ih (show m b' < n by omega)).strengthen
            intro s hs
            exact hs.1
          · apply of_false
            rintro s ⟨-, h⟩
            exact hlt h
      | inr a =>
          apply pure
          intro s hs
          exact hs

end Meets

end Interaction
