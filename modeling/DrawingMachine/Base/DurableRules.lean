import DrawingMachine.Base.Durable

/-!
# Invariants of programs that a crash may cut short

Two ways to reason about a program without a precondition of its own. It keeps an invariant when
the invariant holds again before each of its writes and in the end, however the program ends. And
what a program that has returned did is read off backwards: a sequence has returned when both of
its parts have, a handler when it was not needed or has itself returned.
-/

universe u v w

namespace Durable

variable {σ : Type u} {ε : Type v} {α β : Type w}

/-! ### Invariants -/

/-- Whatever becomes of a run, an invariant that holds before it holds before each of its writes
and in the end. -/
def Keeps (x : Durable σ ε α) (I : σ → Prop) : Prop :=
  ∀ s, I s → Ensures x s (fun _ s' => I s') I

namespace Keeps

variable {I : σ → Prop}

/-- What a crash leaves satisfies the invariant. -/
theorem survivors {x : Durable σ ε α} (h : Keeps x I) {s s' : σ} (hs : I s)
    (hs' : s' ∈ (x s).survivors) :
  I s'
  := (h s hs).survivors (fun _ _ h' => h') s' hs'

/-- The last state satisfies the invariant. -/
theorem final {x : Durable σ ε α} (h : Keeps x I) {s : σ} (hs : I s) : I (x s).final :=
  (h s hs).done

/-- A returned value. -/
theorem pure (a : α) : Keeps (pure a : Durable σ ε α) I := fun _ hs => Ensures.pure hs

/-- A raised error. -/
theorem raise (e : ε) : Keeps (Durable.raise e : Durable σ ε α) I := fun _ hs => Ensures.raise hs

/-- A function of the state. -/
theorem inspect (f : σ → Except ε α) : Keeps (Durable.inspect f) I :=
  fun _ hs => Ensures.inspect hs

/-- A program followed by another one. -/
theorem bind {x : Durable σ ε α} {f : α → Durable σ ε β} (hx : Keeps x I)
    (hf : ∀ a, Keeps (f a) I) :
  Keeps (x >>= f) I
  := by
  intro s hs
  apply (hx s hs).bind_either
  · intro e s' hs'
    exact hs'
  · intro a s' hs'
    exact hf a s' hs'

/-- A program with a handler. -/
theorem handle {x : Durable σ ε α} {f : ε → Durable σ ε α} (hx : Keeps x I)
    (hf : ∀ e, Keeps (f e) I) :
  Keeps (Durable.handle x f) I
  := by
  intro s hs
  apply (hx s hs).handle_either
  · intro a s' hs'
    exact hs'
  · intro e s' hs'
    exact hf e s' hs'

end Keeps

/-! ### Runs that return -/

/-- A run returns a value and leaves a state. -/
def Returns (x : Durable σ ε α) (s : σ) (a : α) (s' : σ) : Prop :=
  (x s).result = .ok a ∧ (x s).final = s'

/-- A run raises an error and leaves a state. -/
def Raises (x : Durable σ ε α) (s : σ) (e : ε) (s' : σ) : Prop :=
  (x s).result = .error e ∧ (x s).final = s'

section

variable {s s' : σ} {a : α} {b : β} {e : ε}

/-- An invariant holds after a run that has returned. -/
theorem Returns.keeps {x : Durable σ ε α} (h : Returns x s a s') {I : σ → Prop} (hx : Keeps x I)
    (hs : I s) :
  I s'
  := by
  rw [← h.2]
  exact hx.final hs

/-- What a run ensures may be said of the value that it returns. -/
theorem Ensures.returns {x : Durable σ ε α} {Q : Except ε α → σ → Prop} {C : σ → Prop}
    (h : Ensures x s Q C) :
  Ensures x s (fun r s' => Q r s' ∧ ∀ a, r = .ok a → Returns x s a s') C
  := by
  refine ⟨⟨h.done, ?_⟩, h.left⟩
  intro a hresult
  exact ⟨hresult, rfl⟩

/-- A returned value. -/
theorem returns_pure_iff {a' : α} :
  Returns (pure a' : Durable σ ε α) s a s' ↔ a' = a ∧ s' = s
  := by
  change Except.ok a' = _ ∧ s = s' ↔ _
  simp [eq_comm]

/-- A function of the state. -/
theorem returns_inspect_iff {f : σ → Except ε α} :
  Returns (Durable.inspect f) s a s' ↔ f s = .ok a ∧ s' = s
  := by
  change f s = _ ∧ s = s' ↔ _
  rw [eq_comm (a := s)]

/-- A raised error is not returned. -/
theorem not_returns_raise : ¬ Returns (Durable.raise e : Durable σ ε α) s a s' := by
  rintro ⟨h, -⟩
  cases h

/-- A raised error. -/
theorem raises_raise_iff {e' : ε} :
  Raises (Durable.raise e' : Durable σ ε α) s e s' ↔ e' = e ∧ s' = s
  := by
  change Except.error e' = _ ∧ s = s' ↔ _
  simp [eq_comm]

/-- A program followed by another one returns exactly when both do. -/
theorem returns_bind_iff {x : Durable σ ε α} {f : α → Durable σ ε β} :
  Returns (x >>= f) s b s' ↔ ∃ a s₁, Returns x s a s₁ ∧ Returns (f a) s₁ b s'
  := by
  change Returns (andThen x f) s b s' ↔ _
  unfold Returns andThen
  cases hcourse : x s with
  | mk left result final =>
      cases result with
      | error e => simp
      | ok a => simp [Course.after]

/-- A program with a handler returns exactly when the program does, or raises what the handler
returns for. -/
theorem returns_handle_iff {x : Durable σ ε α} {f : ε → Durable σ ε α} :
  Returns (Durable.handle x f) s a s' ↔
    Returns x s a s' ∨ ∃ e s₁, Raises x s e s₁ ∧ Returns (f e) s₁ a s'
  := by
  unfold Returns Raises Durable.handle
  cases hcourse : x s with
  | mk left result final =>
      cases result with
      | error e => simp [Course.after]
      | ok a => simp

/-- A program whose handler raises returns exactly when it does. -/
theorem returns_handle_raise_iff {x : Durable σ ε α} {f : ε → ε} :
  Returns (Durable.handle x fun e => Durable.raise (f e)) s a s' ↔ Returns x s a s'
  := by
  rw [returns_handle_iff]
  constructor
  · rintro (h | ⟨e, s₁, -, h⟩)
    · exact h
    · exact absurd h not_returns_raise
  · intro h
    left
    exact h

end

end Durable
