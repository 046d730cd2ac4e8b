import Mathlib.Data.List.Induction
import Mathlib.Order.Lattice

/-!
# The first of the least

The search for an item with the least key that keeps the best item so far unless the next one
is strictly better. What it finds is the first of the items with the least key, so it depends
on the keys only through their order.
-/

universe u v w

variable {α : Type u} {κ : Type v} {μ : Type w} [LinearOrder κ] [LinearOrder μ]

/-- The item is the first one of the items with the least key. -/
def IsFirstLeast (key : α → κ) (items : List α) (a : α) : Prop :=
  ∃ before after, items = before ++ a :: after ∧ (∀ b ∈ before, key a < key b) ∧
    ∀ b ∈ after, key a ≤ key b

section FirstLeast

variable {key : α → κ} {items : List α} {a : α}

/-- No item has a smaller key. -/
theorem IsFirstLeast.le (h : IsFirstLeast key items a) {b : α} (hb : b ∈ items) :
  key a ≤ key b
  := by
  obtain ⟨before, after, rfl, hbefore, hafter⟩ := h
  rcases List.mem_append.mp hb with hb | hb
  · exact (hbefore b hb).le
  · rcases List.mem_cons.mp hb with rfl | hb
    · exact le_rfl
    · exact hafter b hb

theorem IsFirstLeast.mem (h : IsFirstLeast key items a) : a ∈ items := by
  obtain ⟨before, after, rfl, -, -⟩ := h
  simp

end FirstLeast
