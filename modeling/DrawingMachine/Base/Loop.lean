import Mathlib.Data.Nat.Basic
import Mathlib.Tactic.Common

/-!
# Loops

A `while` loop on a state, with a measure that shows that it ends. One pass either finds the
loop finished or gives the next state, which has a smaller measure. The run of a loop is
computed by recursion on the measure; its equation does not mention the measure, and what
every pass keeps, the run keeps.
-/

universe u

/-- A loop that ends. -/
structure Loop (σ : Type u) where
  /-- One pass: the next state, or nothing when the loop is finished. -/
  step : σ → Option σ
  /-- What gets smaller with every pass. -/
  measure : σ → ℕ
  decreases : ∀ {s s' : σ}, step s = some s' → measure s' < measure s

namespace Loop

variable {σ : Type u} (loop : Loop σ)

/-- At most `n` passes. -/
def runFor : ℕ → σ → σ
  | 0, s => s
  | n + 1, s =>
      match loop.step s with
      | none => s
      | some s' => runFor n s'

/-- The state in which the loop is finished. -/
def run (s : σ) : σ := loop.runFor (loop.measure s) s

/-- The number of passes does not matter when it is at least the measure. -/
theorem runFor_eq_run {n : ℕ} {s : σ} (h : loop.measure s ≤ n) : loop.runFor n s = loop.run s := by
  unfold run
  induction n using Nat.strongRecOn generalizing s with
  | ind n ih =>
      cases hstep : loop.step s with
      | none => cases n <;> cases loop.measure s <;> simp [runFor, hstep]
      | some s' =>
          have hlt := loop.decreases hstep
          obtain ⟨n, rfl⟩ : ∃ m, n = m + 1 := ⟨n - 1, by omega⟩
          obtain ⟨m, hm⟩ : ∃ m, loop.measure s = m + 1 := ⟨loop.measure s - 1, by omega⟩
          rw [hm]
          simp only [runFor, hstep]
          rw [ih n (by omega) (by omega), ih m (by omega) (by omega)]

/-- A finished loop stays where it is. -/
theorem run_of_none {s : σ} (h : loop.step s = none) : loop.run s = s := by
  unfold run
  cases loop.measure s with
  | zero => rfl
  | succ n => simp [runFor, h]

/-- A loop that is not finished goes on from the next state. -/
theorem run_of_some {s s' : σ} (h : loop.step s = some s') : loop.run s = loop.run s' := by
  have hlt := loop.decreases h
  obtain ⟨m, hm⟩ : ∃ m, loop.measure s = m + 1 := ⟨loop.measure s - 1, by omega⟩
  have hrun : loop.run s = loop.runFor m s' := by
    unfold run
    rw [hm]
    simp only [runFor, h]
  rw [hrun]
  apply runFor_eq_run
  omega

/-- What holds of a finished loop, and of every loop when it holds from the next state on,
holds of the run. -/
theorem run_induction {P : σ → σ → Prop} (done : ∀ s, loop.step s = none → P s s)
    (pass : ∀ s s' t, loop.step s = some s' → P s' t → P s t) (s : σ) :
  P s (loop.run s)
  := by
  induction h : loop.measure s using Nat.strongRecOn generalizing s with
  | ind n ih =>
      cases hstep : loop.step s with
      | none =>
          rw [loop.run_of_none hstep]
          apply done s hstep
      | some s' =>
          rw [loop.run_of_some hstep]
          apply pass s s' _ hstep
          apply ih (loop.measure s') _ s' rfl
          rw [← h]
          apply loop.decreases hstep

/-- The run ends in a state in which the loop is finished. -/
theorem step_run (s : σ) : loop.step (loop.run s) = none :=
  loop.run_induction (P := fun _ t => loop.step t = none) (fun _ h => h)
    (fun _ _ _ _ h => h) s

/-- What every pass keeps, the run keeps. -/
theorem run_invariant {I : σ → Prop} (keep : ∀ s s', I s → loop.step s = some s' → I s')
    {s : σ} (h : I s) :
  I (loop.run s)
  := by
  apply loop.run_induction (P := fun s t => I s → I t) _ _ s h
  · intro s _ hs
    exact hs
  · intro s s' t hstep ht hs
    apply ht
    apply keep s s' hs hstep

/-- The loop with a count of its passes. -/
def counted : Loop (σ × ℕ) where
  step s := (loop.step s.1).map fun s' => (s', s.2 + 1)
  measure s := loop.measure s.1
  decreases := by
    intro s s' h
    obtain ⟨t, ht, rfl⟩ := Option.map_eq_some_iff.mp h
    exact loop.decreases ht

/-- Counting the passes does not change the run. -/
theorem counted_run_fst (s : σ) (n : ℕ) : (loop.counted.run (s, n)).1 = loop.run s := by
  have h := loop.counted.run_induction (P := fun s t => t.1 = loop.run s.1) ?_ ?_ (s, n)
  · exact h
  · intro s hdone
    exact (loop.run_of_none (Option.map_eq_none_iff.mp hdone)).symm
  · intro s s' t hstep ht
    obtain ⟨u, hu, rfl⟩ := Option.map_eq_some_iff.mp hstep
    rw [loop.run_of_some hu]
    exact ht

end Loop
