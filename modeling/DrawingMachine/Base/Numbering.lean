import Mathlib.Data.List.Pairwise
import Mathlib.Data.List.Basic

/-!
# Numbers in their order

Numbers are handed out one after another, from zero on, and the next one is the count of those
handed out. A list of them is numbered when it is in the order in which they were handed out. It
stays so when numbers leave the list, and when the next one is put at its end.
-/

/-- The list holds numbers that were handed out, in their order. -/
structure Numbered (count : Nat) (line : List Nat) : Prop where
  increasing : line.Pairwise (· < ·)
  below : ∀ n ∈ line, n < count

namespace Numbered

variable {count : Nat} {line line' : List Nat}

/-- The empty list. -/
theorem nil (count : Nat) :
  Numbered count []
  := by
  constructor
  · apply List.Pairwise.nil
  · intro n h
    cases h

/-- Numbers may leave the list. -/
theorem sublist (h : Numbered count line) (hsub : line'.Sublist line) :
  Numbered count line'
  := by
  constructor
  · apply h.increasing.sublist hsub
  · intro n hn
    apply h.below n (hsub.subset hn)

/-- The next number is put at the end of the list. -/
theorem snoc (h : Numbered count line) :
  Numbered (count + 1) (line ++ [count])
  := by
  constructor
  · rw [List.pairwise_append]
    refine ⟨h.increasing, List.pairwise_singleton _ _, ?_⟩
    intro n hn m hm
    rw [List.mem_singleton.mp hm]
    apply h.below n hn
  · intro n hn
    rcases List.mem_append.mp hn with hn | hn
    · apply Nat.lt_succ_of_lt (h.below n hn)
    · rw [List.mem_singleton.mp hn]
      apply Nat.lt_succ_self

/-- One step of a list whose numbers only leave it, or come in at its end. -/
theorem step {count' : Nat} (h : Numbered count line)
    (hstep : line'.Sublist line ∧ count' = count ∨
      line' = line ++ [count] ∧ count' = count + 1) :
  Numbered count' line'
  := by
  rcases hstep with ⟨hsub, rfl⟩ | ⟨rfl, rfl⟩
  · apply h.sublist hsub
  · apply h.snoc

/-- The numbers in front of others are smaller. -/
theorem before {front back : List Nat} (h : Numbered count (front ++ back)) {n m : Nat}
    (hn : n ∈ front) (hm : m ∈ back) :
  n < m
  := by
  have hincreasing := h.increasing
  rw [List.pairwise_append] at hincreasing
  apply hincreasing.2.2 n hn m hm

/-- The front of a numbered list. -/
theorem front {front back : List Nat} (h : Numbered count (front ++ back)) :
  Numbered count front
  := h.sublist (List.sublist_append_left front back)

/-- The back of a numbered list. -/
theorem back {front back : List Nat} (h : Numbered count (front ++ back)) :
  Numbered count back
  := h.sublist (List.sublist_append_right front back)

end Numbered
