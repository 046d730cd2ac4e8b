import Mathlib.Analysis.Real.Sqrt
import Mathlib.Tactic.Linarith
import DrawingMachine.Gcode.Models

/-!
# Plane geometry

Points and segments with rational coordinates. A length is a real number, the square root
of a rational one. The comparisons of a length with a rational bound that decide about a
candidate are made on the squares, which is the same thing.
-/

namespace DrawingMachine

/-- A point of the drawing plane. -/
structure Point where
  x : ℚ
  y : ℚ
  deriving DecidableEq, Repr

/-- The square of the distance of two points. -/
def Point.distSquared (p q : Point) : ℚ := (q.x - p.x) ^ 2 + (q.y - p.y) ^ 2

/-- The distance of two points. -/
noncomputable def Point.dist (p q : Point) : ℝ := Real.sqrt (p.distSquared q)

/-- A segment of the drawing plane, from its start to its end. -/
structure Segment where
  start : Point
  stop : Point
  deriving DecidableEq, Repr

namespace Segment

/-- The square of the length of a segment. -/
def lengthSquared (s : Segment) : ℚ := s.start.distSquared s.stop

/-- The length of a segment. -/
noncomputable def length (s : Segment) : ℝ := s.start.dist s.stop

/-- The segment is longer than `bound`. -/
def LongerThan (s : Segment) (bound : ℚ) : Prop := bound < 0 ∨ bound ^ 2 < s.lengthSquared

instance (s : Segment) (bound : ℚ) : Decidable (s.LongerThan bound) :=
  inferInstanceAs (Decidable (_ ∨ _))

end Segment

theorem Point.distSquared_nonneg (p q : Point) : 0 ≤ p.distSquared q := by
  unfold distSquared
  positivity

/-- Two points at distance zero are the same. -/
theorem Point.eq_of_distSquared_eq_zero {p q : Point} (h : p.distSquared q = 0) : p = q := by
  unfold distSquared at h
  have hx : (q.x - p.x) ^ 2 = 0 := by nlinarith [sq_nonneg (q.x - p.x), sq_nonneg (q.y - p.y)]
  have hy : (q.y - p.y) ^ 2 = 0 := by nlinarith [sq_nonneg (q.x - p.x), sq_nonneg (q.y - p.y)]
  rw [sq_eq_zero_iff, sub_eq_zero] at hx hy
  cases p with
  | mk x y =>
      cases q with
      | mk x' y' => simp_all

/-- The comparison of squares compares the length. -/
theorem Segment.longerThan_iff {s : Segment} {bound : ℚ} :
  s.LongerThan bound ↔ (bound : ℝ) < s.length
  := by
  unfold LongerThan length Point.dist lengthSquared
  have hnn := s.start.distSquared_nonneg s.stop
  have hnn' : (0 : ℝ) ≤ (s.start.distSquared s.stop : ℝ) := by exact_mod_cast hnn
  by_cases hb : bound < 0
  · have hb' : (bound : ℝ) < 0 := by exact_mod_cast hb
    simp only [hb, true_or, true_iff]
    exact lt_of_lt_of_le hb' (Real.sqrt_nonneg _)
  · have hb' : (0 : ℝ) ≤ bound := by exact_mod_cast not_lt.mp hb
    rw [Real.lt_sqrt hb']
    simp only [hb, false_or]
    exact_mod_cast Iff.rfl

/-- A segment has positive length exactly when its ends differ. -/
theorem Segment.longerThan_zero_iff {s : Segment} : s.LongerThan 0 ↔ s.start ≠ s.stop := by
  have hnn := s.start.distSquared_nonneg s.stop
  unfold LongerThan lengthSquared
  constructor
  · rintro (h | h) heq
    · exact lt_irrefl _ h
    · rw [heq] at h
      simp [Point.distSquared] at h
  · intro hne
    right
    have : s.start.distSquared s.stop ≠ 0 := fun h => hne (Point.eq_of_distSquared_eq_zero h)
    simpa using lt_of_le_of_ne hnn (Ne.symm this)

/-- The smallest of the numbers, or zero when there are none. -/
def minimumOf : List ℚ → ℚ
  | [] => 0
  | q :: qs => qs.foldl min q

/-- The largest of the numbers, or zero when there are none. -/
def maximumOf : List ℚ → ℚ
  | [] => 0
  | q :: qs => qs.foldl max q

/-- The bounds of a figure. -/
structure Bounds where
  minX : ℚ
  minY : ℚ
  maxX : ℚ
  maxY : ℚ
  deriving DecidableEq, Repr

/-- The bounds of points; all are zero when there are no points. -/
def boundsOf (points : List Point) : Bounds where
  minX := minimumOf (points.map Point.x)
  minY := minimumOf (points.map Point.y)
  maxX := maximumOf (points.map Point.x)
  maxY := maximumOf (points.map Point.y)

/-- The width of bounds. -/
def Bounds.spanX (b : Bounds) : ℚ := b.maxX - b.minX

/-- The height of bounds. -/
def Bounds.spanY (b : Bounds) : ℚ := b.maxY - b.minY

/-- The ends of segments. -/
def segmentEnds (segments : List Segment) : List Point :=
  segments.flatMap fun s => [s.start, s.stop]

theorem mem_segmentEnds {segments : List Segment} {p : Point} :
  p ∈ segmentEnds segments ↔ ∃ s ∈ segments, p = s.start ∨ p = s.stop
  := by
  simp [segmentEnds]

end DrawingMachine
