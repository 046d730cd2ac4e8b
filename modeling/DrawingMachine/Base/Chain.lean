import Mathlib.Data.List.Chain

/-!
# Chains of related values

A list in which each value is related to the next is a run of a relation. A property of
the first value that every step preserves holds of every value of the run.
-/

universe u

namespace List.IsChain

variable {α : Type u} {R : α → α → Prop} {l : List α}

/-- Consecutive values of a chain are related. -/
theorem rel_getElem? (h : l.IsChain R) {i : Nat} {a b : α} (ha : l[i]? = some a)
    (hb : l[i + 1]? = some b) :
  R a b
  := by
  obtain ⟨hi, rfl⟩ := List.getElem?_eq_some_iff.mp ha
  obtain ⟨hi', rfl⟩ := List.getElem?_eq_some_iff.mp hb
  exact List.isChain_iff_getElem.mp h i hi'

/-- A value of a list has all the values before it. -/
theorem exists_getElem?_of_le {i j : Nat} {b : α} (hij : i ≤ j) (hb : l[j]? = some b) :
  ∃ a, l[i]? = some a
  := by
  obtain ⟨hj, _⟩ := List.getElem?_eq_some_iff.mp hb
  exact ⟨l[i], List.getElem?_eq_getElem (Nat.lt_of_le_of_lt hij hj)⟩

/-- What holds of the first value and is preserved by every step holds of every value. -/
theorem invariant {P : α → Prop} (h : l.IsChain R) (hfirst : ∀ a, l[0]? = some a → P a)
    (hstep : ∀ a b, P a → R a b → P b) {i : Nat} {a : α} (ha : l[i]? = some a) :
  P a
  := by
  induction i generalizing a with
  | zero => exact hfirst a ha
  | succ i ih =>
      obtain ⟨b, hb⟩ := exists_getElem?_of_le (Nat.le_succ i) ha
      exact hstep b a (ih hb) (h.rel_getElem? hb ha)

end List.IsChain
