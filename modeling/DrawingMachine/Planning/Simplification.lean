import DrawingMachine.Planning.Geometry

/-!
# How far a simplified line is from the line

The simplification of a line measures how far a point is from the line through the ends of a
chord, not from the chord itself. So a point that is left out is within the tolerance of the
line through the points kept around it, but it can be far from everything that is kept: a
line that runs beyond its end and comes back is simplified to its chord.
-/

namespace DrawingMachine

/-- The distance of a point from the point that divides a segment, or its line, at a
fraction. -/
noncomputable def distanceAt (x : Point) (s : Segment) (fraction : ℝ) : ℝ :=
  Real.sqrt ((s.start.x + fraction * (s.stop.x - s.start.x) - x.x) ^ 2 +
    (s.start.y + fraction * (s.stop.y - s.start.y) - x.y) ^ 2)

/-- The point is within a distance of the segment. -/
def WithinOfSegment (distance : ℝ) (x : Point) (s : Segment) : Prop :=
  ∃ fraction : ℝ, 0 ≤ fraction ∧ fraction ≤ 1 ∧ distanceAt x s fraction ≤ distance

/-- The point is within a distance of the line through the ends of the segment. -/
def WithinOfLine (distance : ℝ) (x : Point) (s : Segment) : Prop :=
  ∃ fraction : ℝ, distanceAt x s fraction ≤ distance

/-- The point is within a distance of a polyline: of a point or of a segment of it. -/
def WithinOfPolyline (distance : ℝ) (x : Point) (points : List Point) : Prop :=
  (∃ p ∈ points, p.dist x ≤ distance) ∨ ∃ s ∈ segmentsOf points, WithinOfSegment distance x s

/-- The distance from the line is that from a point of the line. -/
theorem exists_distanceAt_eq (x start stop : Point) :
  ∃ fraction : ℝ, distanceAt x ⟨start, stop⟩ fraction = pointLineDistance x start stop
  := by
  unfold pointLineDistance distanceAt
  simp only
  split
  · next h =>
      use 0
      unfold Point.dist Point.distSquared
      congr 1
      push_cast
      ring
  · next h =>
      have hD : (0 : ℚ) < (stop.x - start.x) ^ 2 + (stop.y - start.y) ^ 2 := by
        rcases not_and_or.mp h with hx | hy
        · have := sq_pos_of_ne_zero hx
          positivity
        · have := sq_pos_of_ne_zero hy
          positivity
      have hD' : (0 : ℝ) < ((stop.x : ℝ) - start.x) ^ 2 + ((stop.y : ℝ) - start.y) ^ 2 := by
        exact_mod_cast hD
      -- The foot of the perpendicular.
      use (((x.x : ℝ) - start.x) * (stop.x - start.x) + ((x.y : ℝ) - start.y) * (stop.y - start.y)) /
        (((stop.x : ℝ) - start.x) ^ 2 + ((stop.y : ℝ) - start.y) ^ 2)
      push_cast
      rw [← Real.sqrt_sq_eq_abs, ← Real.sqrt_div (sq_nonneg _)]
      congr 1
      field_simp
      ring

/-- The segments of a polyline lead from a point to the next. -/
theorem mem_segmentsOf_iff {points : List Point} {s : Segment} :
  s ∈ segmentsOf points ↔ (s.start, s.stop) ∈ points.zip points.tail
  := by
  induction points with
  | nil => simp [segmentsOf]
  | cons p points ih =>
      cases points with
      | nil => simp [segmentsOf]
      | cons q points =>
          rw [segmentsOf, List.mem_cons, ih]
          cases s
          simp

/-- A line that runs beyond its end and comes back. -/
def thereAndBack : List Point := [⟨0, 0⟩, ⟨10, 0⟩, ⟨1, 0⟩]

/-- The line is simplified to its chord. -/
theorem simplify_thereAndBack : simplifyPolyline thereAndBack 1 = [⟨0, 0⟩, ⟨1, 0⟩] := by
  rcases Simplify.simplify_cases pointLineDistance (1 : ℝ) (⟨0, 0⟩ : Point) ⟨10, 0⟩ ⟨1, 0⟩ [] with
    ⟨h, -⟩ | ⟨p, hp, hfar⟩
  · exact h
  · have hmem := Simplify.mem_of_mem_simplify _ hp
    simp only [List.mem_cons, List.not_mem_nil, or_false] at hmem
    rcases hmem with rfl | rfl | rfl <;> norm_num [pointLineDistance] at hfar

/-- A point that is left out can be far from the simplified line. -/
theorem simplification_drops_points :
  ¬ ∀ (points : List Point) (tolerance : ℝ), 0 < tolerance →
    (simplifyPolyline points tolerance).head? = points.head? ∧
      (simplifyPolyline points tolerance).getLast? = points.getLast? ∧
      (simplifyPolyline points tolerance).Sublist points ∧
      ∀ x ∈ points, WithinOfPolyline tolerance x (simplifyPolyline points tolerance)
  := by
  intro h
  obtain ⟨-, -, -, hall⟩ := h thereAndBack 1 one_pos
  have hfar := hall ⟨10, 0⟩ (by simp [thereAndBack])
  rw [simplify_thereAndBack] at hfar
  rcases hfar with ⟨p, hp, hnear⟩ | ⟨s, hs, fraction, hle, hge, hnear⟩
  · simp only [List.mem_cons, List.not_mem_nil, or_false] at hp
    rcases hp with rfl | rfl <;> norm_num [Point.dist, Point.distSquared] at hnear
  · simp only [segmentsOf, List.mem_cons, List.not_mem_nil, or_false] at hs
    subst hs
    rw [distanceAt, Real.sqrt_le_left zero_le_one] at hnear
    push_cast at hnear
    nlinarith

/-- The simplified line keeps the first and the last point, it is a subsequence of the line,
and a point that is left out between two points kept next to each other is within the
tolerance of the line through them. -/
theorem simplifyPolyline_near (points : List Point) (tolerance : ℝ) :
  (simplifyPolyline points tolerance).head? = points.head? ∧
    (simplifyPolyline points tolerance).getLast? = points.getLast? ∧
    (simplifyPolyline points tolerance).Sublist points ∧
    Simplify.Approximates pointLineDistance tolerance points
      (simplifyPolyline points tolerance) ∧
    ∀ x ∈ points, x ∈ simplifyPolyline points tolerance ∨
      ∃ s ∈ segmentsOf (simplifyPolyline points tolerance), WithinOfLine tolerance x s
  := by
  have hends := Simplify.sameEnds_simplify pointLineDistance tolerance points
  have happrox := Simplify.approximates_simplify pointLineDistance tolerance points
  refine ⟨hends.head, hends.last, happrox.sublist, happrox, ?_⟩
  intro x hx
  rcases happrox.mem_or_near hx with hkept | ⟨chord, hchord, hnear⟩
  · exact .inl hkept
  · right
    use ⟨chord.1, chord.2⟩, mem_segmentsOf_iff.mpr hchord
    obtain ⟨fraction, hfraction⟩ := exists_distanceAt_eq x chord.1 chord.2
    exact ⟨fraction, hfraction.trans_le hnear⟩

end DrawingMachine
