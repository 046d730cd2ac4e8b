import Mathlib.Algebra.BigOperators.Group.List.Lemmas
import Mathlib.Algebra.Group.Action.Defs
import Mathlib.Algebra.Order.BigOperators.Group.List
import Mathlib.Algebra.Order.Field.Rat
import Mathlib.Order.Bounds.Basic
import Mathlib.Tactic.FieldSimp
import Mathlib.Tactic.Linarith
import Mathlib.Tactic.Positivity
import Mathlib.Tactic.Ring

/-!
# The variance between two classes

A list of numbers is split at a level into the numbers up to the level and those above it.
The variance between the classes is positive exactly when neither is empty. A level with the
greatest variance that is as small as possible is a number of the list, and it lies between the
smallest number and the largest one, which it is not.
-/

namespace ClassVariance

/-- The numbers up to a level. -/
def lower (values : List ℕ) (t : ℕ) : List ℕ := values.filter fun v => decide (v ≤ t)

/-- The numbers above a level. -/
def upper (values : List ℕ) (t : ℕ) : List ℕ := values.filter fun v => decide (t < v)

/-- The mean of numbers. -/
def mean (values : List ℕ) : ℚ := (values.sum : ℚ) / values.length

/-- The variance between the classes on the two sides of a level. -/
def between (values : List ℕ) (t : ℕ) : ℚ :=
  ((lower values t).length / values.length : ℚ) * ((upper values t).length / values.length) *
    (mean (lower values t) - mean (upper values t)) ^ 2

/-- The level is the smallest one below a bound with the greatest variance. -/
def IsBestSplit (bound : ℕ) (values : List ℕ) (t : ℕ) : Prop :=
  IsLeast { t | t < bound ∧ ∀ u < bound, between values u ≤ between values t } t

/-- The variance with the numbers of members for the parts of the whole. -/
def spread (values : List ℕ) (t : ℕ) : ℚ :=
  (lower values t).length * (upper values t).length *
    (mean (lower values t) - mean (upper values t)) ^ 2

variable {values : List ℕ} {t : ℕ}

/-- Every number is on one of the sides. -/
theorem length_lower_add_upper (values : List ℕ) (t : ℕ) :
  (lower values t).length + (upper values t).length = values.length
  := by
  induction values with
  | nil => rfl
  | cons v values ih =>
      simp only [lower, upper, List.filter_cons, decide_eq_true_eq] at ih ⊢
      split <;> split <;> simp only [List.length_cons] <;> omega

/-- The numbers on the two sides add up to all numbers. -/
theorem sum_lower_add_upper (values : List ℕ) (t : ℕ) :
  (lower values t).sum + (upper values t).sum = values.sum
  := by
  induction values with
  | nil => rfl
  | cons v values ih =>
      simp only [lower, upper, List.filter_cons, decide_eq_true_eq] at ih ⊢
      split <;> split <;> simp only [List.sum_cons] <;> omega

/-- The mean of numbers up to a level is not above it. -/
theorem mean_lower_le (h : lower values t ≠ []) : mean (lower values t) ≤ t := by
  have hpos : (0 : ℚ) < (lower values t).length := by exact_mod_cast List.length_pos_iff.mpr h
  have hsum : (lower values t).sum ≤ (lower values t).length • t := by
    apply List.sum_le_card_nsmul
    intro v hv
    simpa using (List.mem_filter.mp hv).2
  unfold mean
  rw [div_le_iff₀ hpos]
  rw [smul_eq_mul, mul_comm] at hsum
  exact_mod_cast hsum

/-- The mean of numbers above a level is above it. -/
theorem lt_mean_upper (h : upper values t ≠ []) : (t : ℚ) < mean (upper values t) := by
  have hpos : (0 : ℚ) < (upper values t).length := by exact_mod_cast List.length_pos_iff.mpr h
  have hsum : (upper values t).length • (t + 1) ≤ (upper values t).sum := by
    apply List.card_nsmul_le_sum
    intro v hv
    have hlt : t < v := by simpa using (List.mem_filter.mp hv).2
    omega
  unfold mean
  rw [lt_div_iff₀ hpos]
  rw [smul_eq_mul, mul_comm] at hsum
  have hsum' : ((t : ℚ) + 1) * (upper values t).length ≤ (upper values t).sum := by
    exact_mod_cast hsum
  linarith

/-- The spread is positive exactly when no side is empty. -/
theorem spread_pos_iff : 0 < spread values t ↔ lower values t ≠ [] ∧ upper values t ≠ [] := by
  constructor
  · intro h
    constructor
    · intro hempty
      simp [spread, hempty] at h
    · intro hempty
      simp [spread, hempty] at h
  · rintro ⟨hlower, hupper⟩
    have hlt : mean (lower values t) - mean (upper values t) ≠ 0 := by
      have := mean_lower_le hlower
      have := lt_mean_upper hupper
      apply ne_of_lt
      linarith
    have hn : (0 : ℚ) < (lower values t).length := by
      exact_mod_cast List.length_pos_iff.mpr hlower
    have hm : (0 : ℚ) < (upper values t).length := by
      exact_mod_cast List.length_pos_iff.mpr hupper
    unfold spread
    positivity

theorem spread_nonneg (values : List ℕ) (t : ℕ) : 0 ≤ spread values t := by
  unfold spread
  positivity

/-- A side is empty when the spread is zero. -/
theorem spread_eq_zero_iff : spread values t = 0 ↔ lower values t = [] ∨ upper values t = [] := by
  rw [← not_iff_not, not_or, ← ne_eq, ← ne_eq, ← ne_eq, ← spread_pos_iff,
    lt_iff_le_and_ne]
  have := spread_nonneg values t
  constructor
  · intro h
    exact ⟨this, h.symm⟩
  · intro h
    exact h.2.symm

/-- The variance is the spread over the square of the number of members. -/
theorem between_eq (values : List ℕ) (t : ℕ) :
  between values t = spread values t / (values.length : ℚ) ^ 2
  := by
  unfold between spread
  rcases eq_or_ne (values.length : ℚ) 0 with h | h
  · rw [h]
    simp
  · field_simp

/-- The variances compare like the spreads. -/
theorem between_le_iff {u : ℕ} (hne : values ≠ []) :
  between values u ≤ between values t ↔ spread values u ≤ spread values t
  := by
  have hpos : (0 : ℚ) < (values.length : ℚ) ^ 2 := by
    have : (0 : ℚ) < values.length := by exact_mod_cast List.length_pos_iff.mpr hne
    positivity
  rw [between_eq, between_eq, div_le_div_iff_of_pos_right hpos]

/-! ### The best split -/

/-- Between two levels without a number the spread stays the same. -/
theorem spread_eq_of_not_mem (h : t + 1 ∉ values) : spread values (t + 1) = spread values t := by
  have hlower : lower values (t + 1) = lower values t := by
    apply List.filter_congr
    intro v hv
    rw [decide_eq_decide]
    have : v ≠ t + 1 := fun heq => h (heq ▸ hv)
    omega
  have hupper : upper values (t + 1) = upper values t := by
    apply List.filter_congr
    intro v hv
    rw [decide_eq_decide]
    have : v ≠ t + 1 := fun heq => h (heq ▸ hv)
    omega
  unfold spread
  rw [hlower, hupper]

/-- Two different numbers are on different sides of the smaller one. -/
theorem spread_pos_of_lt {a b : ℕ} (ha : a ∈ values) (hb : b ∈ values) (hat : a ≤ t)
    (htb : t < b) :
  0 < spread values t
  := by
  rw [spread_pos_iff]
  constructor
  · exact List.ne_nil_of_mem (List.mem_filter.mpr ⟨ha, decide_eq_true hat⟩)
  · exact List.ne_nil_of_mem (List.mem_filter.mpr ⟨hb, decide_eq_true htb⟩)

section Best

variable {bound a b : ℕ}

/-- At a best split of different numbers no side is empty. -/
theorem IsBestSplit.sides (h : IsBestSplit bound values t) (ha : a ∈ values) (hb : b ∈ values)
    (hab : a < b) (hbound : b ≤ bound) :
  lower values t ≠ [] ∧ upper values t ≠ []
  := by
  rw [← spread_pos_iff]
  have hle := (between_le_iff (List.ne_nil_of_mem ha)).mp (h.1.2 a (by omega))
  exact (spread_pos_of_lt ha hb le_rfl hab).trans_le hle

/-- A best split of different numbers is at one of the numbers. -/
theorem IsBestSplit.mem (h : IsBestSplit bound values t) (ha : a ∈ values) (hb : b ∈ values)
    (hab : a < b) (hbound : b ≤ bound) :
  t ∈ values
  := by
  by_contra hnot
  obtain ⟨hlower, -⟩ := h.sides ha hb hab hbound
  cases t with
  | zero =>
      obtain ⟨v, hv⟩ := List.exists_mem_of_ne_nil _ hlower
      obtain ⟨hmem, hle⟩ := List.mem_filter.mp hv
      have hzero : v = 0 := by simpa using hle
      exact hnot (hzero ▸ hmem)
  | succ t =>
      have hsmaller : t + 1 ≤ t := by
        apply h.2
        refine ⟨by have := h.1.1; omega, ?_⟩
        intro u hu
        have hle := h.1.2 u hu
        rw [between_le_iff (List.ne_nil_of_mem ha), spread_eq_of_not_mem hnot] at hle
        rwa [between_le_iff (List.ne_nil_of_mem ha)]
      omega

/-- The level with the greatest spread before which the spread is smaller is the best split. -/
theorem isBestSplit_of_spread (hne : values ≠ []) (hbound : t < bound)
    (hle : ∀ u < bound, spread values u ≤ spread values t)
    (hlt : ∀ u < t, spread values u < spread values t) :
  IsBestSplit bound values t
  := by
  constructor
  · use hbound
    intro u hu
    exact (between_le_iff hne).mpr (hle u hu)
  · rintro u ⟨-, hbest⟩
    by_contra hnot
    have hle' := (between_le_iff hne).mp (hbest t hbound)
    exact absurd (hlt u (by omega)) (not_lt.mpr hle')

end Best

/-! ### Running counts -/

/-- The number of members below the next level. -/
theorem length_lower (values : List ℕ) (t : ℕ) :
  (lower values t).length = (values.filter fun v => decide (v < t)).length + values.count t
  := by
  induction values with
  | nil => rfl
  | cons v values ih =>
      simp only [lower] at ih ⊢
      rcases lt_trichotomy v t with h | rfl | h
      · simp [h, h.le, h.ne, ih]
        omega
      · simp [ih, add_assoc]
      · simp [not_le.mpr h, not_lt.mpr h.le, h.ne', ih]

/-- The sum of the members below the next level. -/
theorem sum_lower (values : List ℕ) (t : ℕ) :
  (lower values t).sum = (values.filter fun v => decide (v < t)).sum + t * values.count t
  := by
  induction values with
  | nil => rfl
  | cons v values ih =>
      simp only [lower] at ih ⊢
      rcases lt_trichotomy v t with h | rfl | h
      · simp [h, h.le, h.ne, ih, add_assoc]
      · simp [ih]
        ring
      · simp [not_le.mpr h, not_lt.mpr h.le, h.ne', ih]

/-- Below the next level are the members up to the level. -/
theorem filter_lt_succ (values : List ℕ) (t : ℕ) :
  (values.filter fun v => decide (v < t + 1)) = lower values t
  := by
  apply List.filter_congr
  intro v _
  rw [decide_eq_decide, Nat.lt_succ_iff]

/-- The counts of the levels below a bound add up to the number of members below it. -/
theorem sum_count (values : List ℕ) (n : ℕ) :
  ((List.range n).map fun v => values.count v).sum
    = (values.filter fun v => decide (v < n)).length
  := by
  induction n with
  | zero => simp
  | succ n ih =>
      rw [List.range_succ, List.map_append, List.sum_append, ih, filter_lt_succ, length_lower]
      simp

/-- The levels below a bound, each as often as it is a member, add up to the members below it. -/
theorem sum_mul_count (values : List ℕ) (n : ℕ) :
  ((List.range n).map fun v => v * values.count v).sum
    = (values.filter fun v => decide (v < n)).sum
  := by
  induction n with
  | zero => simp
  | succ n ih =>
      rw [List.range_succ, List.map_append, List.sum_append, ih, filter_lt_succ, sum_lower]
      simp

end ClassVariance
