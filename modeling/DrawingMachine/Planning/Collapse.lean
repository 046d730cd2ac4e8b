import DrawingMachine.Gcode.Agreement
import DrawingMachine.Gcode.Selection
import DrawingMachine.Planning.Records

/-!
# Lines that collapse

When the simplification of a line leaves nothing of it. A line collapses when it ends where
it starts and no point of it is further from there than the tolerance; every other line
keeps a positive length, and a positive length of a line of rounded points is at least one
unit of the last decimal.
-/

namespace DrawingMachine

/-- A line of two points at least ends where it starts, and all of its points are within the
tolerance of that point. -/
def Collapses (tolerance : ℚ) (points : List Point) : Prop :=
  2 ≤ points.length ∧ ∃ p, points.head? = some p ∧ points.getLast? = some p ∧
    ∀ q ∈ points, p.distSquared q ≤ tolerance ^ 2

/-! ### Lengths -/

/-- A segment has a length that is not negative. -/
theorem Segment.length_nonneg (s : Segment) : 0 ≤ s.length := Real.sqrt_nonneg _

/-- A line has a length that is not negative. -/
theorem polylineLength_nonneg (points : List Point) : 0 ≤ polylineLength points := by
  apply List.sum_nonneg
  intro x hx
  obtain ⟨s, -, rfl⟩ := List.mem_map.mp hx
  apply s.length_nonneg

/-- A line is at least as long as each of its segments. -/
theorem length_le_polylineLength {points : List Point} {s : Segment} (h : s ∈ segmentsOf points) :
  s.length ≤ polylineLength points
  := by
  apply List.single_le_sum _ _ (List.mem_map_of_mem h)
  intro x hx
  obtain ⟨t, -, rfl⟩ := List.mem_map.mp hx
  apply t.length_nonneg

/-- The points of a line without length are the same. -/
theorem eq_of_polylineLength_eq_zero {p : Point} {points : List Point}
    (h : polylineLength (p :: points) = 0) :
  ∀ q ∈ points, q = p
  := by
  induction points generalizing p with
  | nil => simp
  | cons q points ih =>
      have hsegment : ¬ (⟨p, q⟩ : Segment).LongerThan 0 := by
        rw [Segment.longerThan_iff, not_lt]
        have hmem : (⟨p, q⟩ : Segment) ∈ segmentsOf (p :: q :: points) := by simp [segmentsOf]
        have := length_le_polylineLength hmem
        rw [h] at this
        simpa using this
      obtain rfl : p = q := by simpa [Segment.longerThan_zero_iff] using hsegment
      have hrest : polylineLength (p :: points) = 0 := by
        simpa [polylineLength, segmentsOf, Segment.length, Point.dist, Point.distSquared] using h
      intro r hr
      rcases List.mem_cons.mp hr with rfl | hr
      · rfl
      · apply ih hrest r hr

/-- A line whose points are the same has no length. -/
theorem polylineLength_eq_zero {p : Point} {points : List Point} (h : ∀ q ∈ points, q = p) :
  polylineLength points = 0
  := by
  induction points with
  | nil => rfl
  | cons q points ih =>
      have hrest := ih fun r hr => h r (by simp [hr])
      cases points with
      | nil => rfl
      | cons r points =>
          obtain rfl := h q (by simp)
          obtain rfl := h r (by simp)
          simpa [polylineLength, segmentsOf, Segment.length, Point.dist, Point.distSquared] using
            hrest

/-- A distance is at most a bound exactly when its square is at most the square. -/
theorem Point.dist_le_iff {p q : Point} {bound : ℚ} (h : 0 ≤ bound) :
  p.dist q ≤ bound ↔ p.distSquared q ≤ bound ^ 2
  := by
  have hlonger : (⟨p, q⟩ : Segment).LongerThan bound ↔ _ := Segment.longerThan_iff
  unfold Segment.LongerThan Segment.lengthSquared Segment.length at hlonger
  rw [← not_lt, ← not_lt, ← hlonger]
  simp [not_lt.mpr h]

/-- A point on the place of a chord without length deviates by its distance. -/
theorem pointLineDistance_self (p start : Point) :
  pointLineDistance p start start = start.dist p
  := by
  simp [pointLineDistance]

/-! ### Simplified lines -/

/-- The points of a simplified line are points of the line, and so are its ends. -/
theorem sameEnds_simplifiedPoints (points : List Point) (tolerance : ℚ) :
  Simplify.SameEnds points (simplifiedPoints points tolerance) ∧
    ∀ p ∈ simplifiedPoints points tolerance, p ∈ points
  := by
  unfold simplifiedPoints
  split
  · constructor
    · apply Simplify.sameEnds_simplify
    · intro p
      apply Simplify.mem_of_mem_simplify
  · exact ⟨⟨rfl, rfl, id⟩, fun _ => id⟩

/-- The points of a line are its ends and the points between them. -/
theorem mem_points_iff {first second third p : Point} {rest : List Point} :
  p ∈ first :: second :: third :: rest ↔
    p = first ∨ p ∈ second :: (third :: rest).dropLast ∨
      p = (third :: rest).getLast (by simp)
  := by
  have hsplit := List.dropLast_append_getLast (l := third :: rest) (by simp)
  rw [List.mem_cons, List.mem_cons, List.mem_cons (a := p) (b := second), or_assoc]
  conv_lhs =>
    rw [← hsplit, List.mem_append, List.mem_singleton]

/-- The last point of a line. -/
theorem getLast?_points {first second third : Point} {rest : List Point} :
  (first :: second :: third :: rest).getLast? = some ((third :: rest).getLast (by simp))
  := by
  rw [List.getLast?_cons_cons, List.getLast?_cons_cons]
  exact List.getLast?_eq_some_getLast (by simp)

/-- The ends of a collapsed line are the same, and no point between them is further from
there than the tolerance. -/
theorem collapses_iff {tolerance : ℚ} {first second third : Point} {rest : List Point} :
  Collapses tolerance (first :: second :: third :: rest) ↔
    first = (third :: rest).getLast (by simp) ∧
      ∀ q ∈ second :: (third :: rest).dropLast, first.distSquared q ≤ tolerance ^ 2
  := by
  unfold Collapses
  rw [getLast?_points]
  constructor
  · rintro ⟨-, p, hhead, hp, hall⟩
    obtain rfl : first = p := by simpa using hhead
    constructor
    · exact (Option.some.inj hp).symm
    · intro q hq
      apply hall q
      rw [mem_points_iff]
      exact .inr (.inl hq)
  · rintro ⟨heq, hall⟩
    refine ⟨by simp, first, rfl, by rw [heq], ?_⟩
    intro q hq
    rcases mem_points_iff.mp hq with rfl | hq | rfl
    · simp [Point.distSquared, sq_nonneg]
    · apply hall q hq
    · rw [← heq]
      simp [Point.distSquared, sq_nonneg]

/-- A line of two points collapses when they are the same. -/
theorem collapses_pair_iff {tolerance : ℚ} {a b : Point} : Collapses tolerance [a, b] ↔ a = b := by
  constructor
  · rintro ⟨-, p, ha, hb, -⟩
    simp only [List.head?_cons, Option.some.injEq] at ha
    simp only [List.getLast?_cons_cons, List.getLast?_singleton, Option.some.injEq] at hb
    rw [ha, hb]
  · rintro rfl
    refine ⟨by simp, a, rfl, rfl, ?_⟩
    simp [Point.distSquared, sq_nonneg]

/-- A line without length has the same points. -/
theorem eq_of_mem_of_polylineLength_eq_zero {points : List Point}
    (h : polylineLength points = 0) {p q : Point} (hp : p ∈ points) (hq : q ∈ points) :
  p = q
  := by
  match points with
  | r :: rest =>
      have hrest : ∀ p ∈ r :: rest, p = r := by simpa using eq_of_polylineLength_eq_zero h
      rw [hrest p hp, hrest q hq]

/-- The chord of a line has no length exactly when its ends are the same. -/
theorem polylineLength_pair_eq_zero_iff {p q : Point} : polylineLength [p, q] = 0 ↔ p = q := by
  constructor
  · intro h
    apply eq_of_mem_of_polylineLength_eq_zero h <;> simp
  · rintro rfl
    apply polylineLength_eq_zero (p := p)
    simp

/-- Nothing is left of a line exactly when it collapses. -/
theorem polylineLength_simplifyPolyline_eq_zero_iff {points : List Point} {tolerance : ℚ}
    (htolerance : 0 ≤ tolerance) (htwo : 2 ≤ points.length) :
  polylineLength (simplifyPolyline points tolerance) = 0 ↔ Collapses tolerance points
  := by
  match points, htwo with
  | [a, b], _ =>
      rw [simplifyPolyline, Simplify.simplify_of_length_le _ (by simp),
        polylineLength_pair_eq_zero_iff, collapses_pair_iff]
  | first :: second :: third :: rest, _ =>
      have hends := Simplify.sameEnds_simplify pointLineDistance (tolerance : ℝ)
        (first :: second :: third :: rest)
      have hreal : (0 : ℝ) ≤ tolerance := by exact_mod_cast htolerance
      rw [collapses_iff]
      rcases Simplify.simplify_cases pointLineDistance (tolerance : ℝ) first second third rest with
        ⟨hchord, hall⟩ | ⟨p, hp, hfar⟩
      · -- The chord is what is left.
        rw [simplifyPolyline, hchord, polylineLength_pair_eq_zero_iff, iff_self_and]
        intro heq q hq
        have hq := hall q hq
        rw [← heq, pointLineDistance_self, Point.dist_le_iff htolerance] at hq
        exact hq
      · -- A point that is left is further away than the tolerance.
        constructor
        · intro h
          have hfirst := List.mem_of_head? hends.head
          have hlast := List.mem_of_getLast? (hends.last.trans getLast?_points)
          obtain rfl := eq_of_mem_of_polylineLength_eq_zero h hfirst hp
          rw [← eq_of_mem_of_polylineLength_eq_zero h hfirst hlast, pointLineDistance_self] at hfar
          simp [Point.dist, Point.distSquared, not_lt.mpr hreal] at hfar
        · intro h
          obtain ⟨-, r, hhead, -, hall⟩ := collapses_iff.mpr h
          obtain rfl : first = r := by simpa using hhead
          have hnear := hall p (Simplify.mem_of_mem_simplify _ hp)
          rw [← Point.dist_le_iff htolerance] at hnear
          rw [← h.1, pointLineDistance_self] at hfar
          exact absurd hnear (not_le.mpr hfar)

/-- Nothing is left of the points that are kept exactly when the line collapses. -/
theorem polylineLength_simplifiedPoints_eq_zero_iff {points : List Point} {tolerance : ℚ}
    (htolerance : 0 ≤ tolerance) (htwo : 2 ≤ points.length) :
  polylineLength (simplifiedPoints points tolerance) = 0 ↔ Collapses tolerance points
  := by
  unfold simplifiedPoints
  split
  · apply polylineLength_simplifyPolyline_eq_zero_iff htolerance htwo
  · next hnot =>
      obtain rfl : tolerance = 0 := le_antisymm (not_lt.mp hnot) htolerance
      constructor
      · intro h
        have hsame := fun p hp q hq => eq_of_mem_of_polylineLength_eq_zero (p := p) (q := q) h hp hq
        have hne : points ≠ [] := by
          rintro rfl
          simp at htwo
        refine ⟨htwo, points.head hne, List.head?_eq_some_head hne, ?_, ?_⟩
        · rw [List.getLast?_eq_some_getLast hne,
            hsame _ (List.head_mem hne) _ (List.getLast_mem hne)]
        · intro q hq
          rw [hsame _ (List.head_mem hne) q hq]
          simp [Point.distSquared]
      · rintro ⟨-, p, -, -, hall⟩
        apply polylineLength_eq_zero (p := p)
        intro q hq
        have hzero : p.distSquared q = 0 := by
          apply le_antisymm _ (p.distSquared_nonneg q)
          simpa using hall q hq
        exact (Point.eq_of_distSquared_eq_zero hzero).symm

/-! ### Lines of rounded points -/

/-- A rounded number stays as it is. -/
theorem roundTo_roundTo (k : ℕ) (x : ℚ) : roundTo k (roundTo k x) = roundTo k x := by
  have hp : (10 : ℚ) ^ k ≠ 0 := by positivity
  unfold roundTo
  rw [div_mul_cancel₀ _ hp, roundHalfEven_intCast]

/-- The coordinates of a point are rounded to four decimals. -/
def Point.Rounded (p : Point) : Prop := roundTo 4 p.x = p.x ∧ roundTo 4 p.y = p.y

/-- The place of a pixel is rounded. -/
theorem rounded_place (t : Transform) (p : Pixel) : (t.place p).Rounded :=
  ⟨roundTo_roundTo 4 _, roundTo_roundTo 4 _⟩

/-- A rounded point is written as it is. -/
theorem writtenPoint_eq {p : Point} (h : p.Rounded) : writtenPoint p = p.toJson := by
  rw [writtenPoint, h.1, h.2, Point.toJson]

/-- Rounded numbers that differ are at least one unit of the last decimal apart. -/
theorem sq_unit_le_of_rounded {a b : ℚ} (ha : roundTo 4 a = a) (hb : roundTo 4 b = b)
    (hne : a ≠ b) :
  ((1 : ℚ) / 10 ^ 4) ^ 2 ≤ (b - a) ^ 2
  := by
  set m := roundHalfEven (a * 10 ^ 4)
  set n := roundHalfEven (b * 10 ^ 4)
  have ha' : a = (m : ℚ) / 10 ^ 4 := ha.symm
  have hb' : b = (n : ℚ) / 10 ^ 4 := hb.symm
  have hmn : n - m ≠ 0 := by
    intro h
    apply hne
    rw [ha', hb', sub_eq_zero.mp h]
  have hone : (1 : ℚ) ≤ ((n : ℚ) - m) ^ 2 := by
    exact_mod_cast Int.one_le_abs (pow_ne_zero 2 hmn) |>.trans_eq (abs_of_nonneg (sq_nonneg _))
  rw [ha', hb', ← sub_div, div_pow, div_pow, one_pow]
  gcongr

/-- Rounded points that differ are at least one unit of the last decimal apart. -/
theorem unit_le_dist_of_rounded {p q : Point} (hp : p.Rounded) (hq : q.Rounded) (hne : p ≠ q) :
  (1 : ℝ) / 10 ^ 4 ≤ p.dist q
  := by
  have hsquare : ((1 : ℚ) / 10 ^ 4) ^ 2 ≤ p.distSquared q := by
    unfold Point.distSquared
    by_cases hx : p.x = q.x
    · have hy : p.y ≠ q.y := by
        intro hy
        apply hne
        cases p
        cases q
        simp_all
      have := sq_unit_le_of_rounded hp.2 hq.2 hy
      nlinarith [sq_nonneg (q.x - p.x)]
    · have := sq_unit_le_of_rounded hp.1 hq.1 hx
      nlinarith [sq_nonneg (q.y - p.y)]
  have hcast : ((((1 : ℚ) / 10 ^ 4) ^ 2 : ℚ) : ℝ) ≤ (p.distSquared q : ℝ) := Rat.cast_le.mpr hsquare
  apply Real.le_sqrt_of_sq_le
  simpa using hcast

/-- A line of rounded points with a positive length is at least one unit of the last decimal
long. -/
theorem unit_le_polylineLength {points : List Point} (hrounded : ∀ p ∈ points, p.Rounded)
    (h : 0 < polylineLength points) :
  (1 : ℝ) / 10 ^ 4 ≤ polylineLength points
  := by
  obtain ⟨s, hs, hlonger⟩ := exists_longerThan_of_polylineLength h
  have hends : s.start ∈ points ∧ s.stop ∈ points := by
    match points with
    | [] => cases hs
    | [_] => cases hs
    | a :: b :: rest =>
        constructor
        · exact mem_segmentEnds_segmentsOf.mp (mem_segmentEnds.mpr ⟨s, hs, .inl rfl⟩)
        · exact mem_segmentEnds_segmentsOf.mp (mem_segmentEnds.mpr ⟨s, hs, .inr rfl⟩)
  calc
    (1 : ℝ) / 10 ^ 4 ≤ s.length :=
      unit_le_dist_of_rounded (hrounded _ hends.1) (hrounded _ hends.2)
        (Segment.longerThan_zero_iff.mp hlonger)
    _ ≤ polylineLength points := length_le_polylineLength hs

/-- The length that is written is the length, rounded. -/
theorem cast_writtenLength (points : List Point) :
  (writtenLength points : ℝ) = roundTo 4 (polylineLength points)
  := by
  simp [writtenLength, roundTo]

/-- A positive length of a line of rounded points is written as a positive number. -/
theorem writtenLength_pos {points : List Point} (hrounded : ∀ p ∈ points, p.Rounded)
    (h : 0 < polylineLength points) :
  0 < writtenLength points
  := by
  have hunit := unit_le_polylineLength hrounded h
  have hone : (1 : ℝ) ≤ polylineLength points * 10 ^ 4 := by
    rw [div_le_iff₀ (by positivity)] at hunit
    exact hunit
  have hfloor : 1 ≤ ⌊polylineLength points * 10 ^ 4⌋ := Int.le_floor.mpr (by exact_mod_cast hone)
  have hround : 1 ≤ roundHalfEven (polylineLength points * 10 ^ 4) := by
    unfold roundHalfEven
    split_ifs <;> omega
  apply div_pos _ (by positivity)
  exact_mod_cast hround

end DrawingMachine
