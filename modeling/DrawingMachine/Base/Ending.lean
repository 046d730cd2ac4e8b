import DrawingMachine.Base.Interaction
import Mathlib.Algebra.Order.Floor.Semiring
import Mathlib.Tactic.Linarith

/-!
# Programs that come to an end

A run that ends makes no events, and either returns a value in a state that are as stated, or
escapes with an exception that is as stated. A loop ends when a measure of its state decreases
with every round, as soon as it is given more rounds than the measure. The time that a loop has
left is such a measure, when every round lets a fixed interval pass.
-/

namespace Interaction

universe u v w

variable {σ : Type u} {ε : Type v} {α β : Type w}

/-- From the given state the run returns without events, and the value and the state are as
stated, or it escapes with an exception as stated. -/
structure Ends (x : Interaction σ ε α) (s : σ) (E : ε → Prop) (Q : α → σ → Prop) : Prop where
  of_run : (∃ a s', x s = .done [] a s' ∧ Q a s') ∨ ∃ e, x s = .escaped [e] ∧ E e

/-- A run that returns without events is followed by the next one. -/
theorem bind_of_done {x : Interaction σ ε β} {f : β → Interaction σ ε α} {s s' : σ} {b : β}
    (h : x s = .done [] b s') :
  (x >>= f) s = f b s'
  := by
  change andThen x f s = _
  unfold andThen
  simp only [h]
  cases f b s' <;> rfl

namespace Ends

variable {s : σ} {E : ε → Prop} {P : β → σ → Prop} {Q : α → σ → Prop}

/-- A returned value. -/
theorem pure {a : α} (h : Q a s) : Ends (pure a) s E Q := by
  constructor
  left
  use a, s, rfl

/-- One interaction. -/
theorem perform {f : σ → α × σ} (h : Q (f s).1 (f s).2) : Ends (Interaction.perform f) s E Q := by
  constructor
  left
  use (f s).1, (f s).2, rfl

/-- An escape. -/
theorem escape {e : ε} (h : E e) : Ends (Interaction.escape e) s E Q := by
  constructor
  right
  use e, rfl

/-- What is known of the end may be stated more weakly. -/
theorem mono {Q' : α → σ → Prop} {x : Interaction σ ε α} (h : Ends x s E Q)
    (hQ : ∀ a s', Q a s' → Q' a s') :
  Ends x s E Q'
  := by
  constructor
  rcases h.of_run with ⟨a, s', hx, ha⟩ | ⟨e, hx, he⟩
  · left
    use a, s', hx, hQ a s' ha
  · right
    use e, hx

/-- A run followed by another one. -/
theorem bind {x : Interaction σ ε β} {f : β → Interaction σ ε α} (hx : Ends x s E P)
    (hf : ∀ b s', P b s' → Ends (f b) s' E Q) :
  Ends (x >>= f) s E Q
  := by
  constructor
  change (∃ a s', andThen x f s = _ ∧ _) ∨ ∃ e, andThen x f s = _ ∧ _
  unfold andThen
  rcases hx.of_run with ⟨b, s₁, hrun, hb⟩ | ⟨e, hrun, he⟩
  · rw [hrun]
    rcases (hf b s₁ hb).of_run with ⟨a, s₂, hrest, ha⟩ | ⟨e, hrest, he⟩
    · left
      use a, s₂, by simp [hrest]
    · right
      use e, by simp [hrest]
  · right
    use e, by rw [hrun]

/-- What a round of a loop comes to: the invariant with a smaller measure, or what the loop
returns. -/
def Round (I : β → σ → Prop) (measure : β → σ → ℕ) (bound : ℕ) (Q : α → σ → Prop) :
    β ⊕ α → σ → Prop
  | .inl b, s => I b s ∧ measure b s < bound
  | .inr a, s => Q a s

/-- A loop ends when every round keeps the invariant and decreases the measure. -/
theorem iterate {step : β → Interaction σ ε (β ⊕ α)} (I : β → σ → Prop) (measure : β → σ → ℕ)
    (hstep : ∀ b s, I b s → Ends (step b) s E (Round I measure (measure b s) Q)) {n : ℕ} {b : β}
    {s : σ} (hI : I b s) (hn : measure b s < n) :
  Ends (Interaction.iterate step n b) s E Q
  := by
  induction n generalizing b s with
  | zero => cases hn
  | succ n ih =>
      change Ends (step b >>= _) s E Q
      apply bind (hstep b s hI)
      intro r s' hr
      cases r with
      | inl b' => exact ih hr.1 (by have := hr.2; omega)
      | inr a => exact pure hr

end Ends

/-! ### Time that is left -/

section

variable {K : Type*} [Field K] [LinearOrder K] [IsStrictOrderedRing K] [FloorSemiring K]
  {rate deadline now later : K}

/-- The number of intervals, of which there are `rate` in a unit of time, until a deadline. -/
def intervalsLeft (rate deadline now : K) : ℕ := ⌈rate * (deadline - now)⌉₊

/-- Time that passes leaves no more intervals. -/
theorem intervalsLeft_le (hrate : 0 < rate) (h : now ≤ later) :
  intervalsLeft rate deadline later ≤ intervalsLeft rate deadline now
  := by
  apply Nat.ceil_le_ceil
  apply mul_le_mul_of_nonneg_left _ hrate.le
  linarith

/-- When an interval passes, or all the time that is left, fewer intervals are left. -/
theorem intervalsLeft_lt (hrate : 0 < rate) (hleft : now < deadline)
    (h : now + min (1 / rate) (deadline - now) ≤ later) :
  intervalsLeft rate deadline later < intervalsLeft rate deadline now
  := by
  have hpos : 0 < rate * (deadline - now) := mul_pos hrate (by linarith)
  rcases le_total (1 / rate) (deadline - now) with hle | hle
  · rw [min_eq_left hle] at h
    have hstep : rate * (deadline - later) + 1 ≤ rate * (deadline - now) := by
      have hmul := mul_le_mul_of_nonneg_left h hrate.le
      rw [mul_add, mul_one_div_cancel hrate.ne'] at hmul
      linarith
    rcases le_or_gt (rate * (deadline - later)) 0 with hdone | hmore
    · rw [intervalsLeft, intervalsLeft, Nat.ceil_eq_zero.mpr hdone]
      apply Nat.ceil_pos.mpr hpos
    · apply Nat.lt_of_succ_le
      rw [intervalsLeft, intervalsLeft, Nat.succ_eq_add_one, ← Nat.ceil_add_one hmore.le]
      apply Nat.ceil_le_ceil hstep
  · rw [min_eq_right hle] at h
    have hdone : rate * (deadline - later) ≤ 0 :=
      mul_nonpos_of_nonneg_of_nonpos hrate.le (by linarith)
    rw [intervalsLeft, intervalsLeft, Nat.ceil_eq_zero.mpr hdone]
    apply Nat.ceil_pos.mpr hpos

end

end Interaction
