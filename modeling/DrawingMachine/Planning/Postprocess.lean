import Mathlib.Analysis.SpecialFunctions.Trigonometric.Inverse
import DrawingMachine.Planning.Strokes

/-!
# The choice of the strokes

What becomes of the traced lines before they are drawn: short lines are dropped, lines whose
ends meet in about the same direction are merged, the closest first, and short lines that
run along a longer one are dropped. What the program counts on the way is left out.
-/

namespace DrawingMachine

/-- A direction of the plane. -/
abbrev Direction := ℝ × ℝ

/-- The length of a vector. -/
noncomputable def hypot (deltaX deltaY : ℝ) : ℝ := Real.sqrt (deltaX ^ 2 + deltaY ^ 2)

open Classical in
/-- The direction of a vector. -/
noncomputable def normalizeDirection (deltaX deltaY : ℝ) : Direction :=
  let length := hypot deltaX deltaY
  if length = 0 then (0, 0) else (deltaX / length, deltaY / length)

open Classical in
/-- The angle between two directions, in degrees. -/
noncomputable def angleBetween (first second : Direction) : ℝ :=
  if hypot first.1 first.2 = 0 ∨ hypot second.1 second.2 = 0 then 180
  else
    let dot := max (-1) (min 1 (first.1 * second.1 + first.2 * second.2))
    Real.arccos dot * 180 / Real.pi

/-- The direction from a pixel to a pixel. -/
noncomputable def directionTo (p q : Pixel) : Direction :=
  normalizeDirection ((q.x - p.x : ℤ) : ℝ) ((q.y - p.y : ℤ) : ℝ)

/-! ### Merging -/

/-- The direction in which a line starts. -/
noncomputable def headDirection (path : PixelPath) : Direction :=
  match path[0]?, path[min (path.length - 1) 3]? with
  | some head, some inner => if path.length < 2 then (0, 0) else directionTo head inner
  | _, _ => (0, 0)

/-- The direction in which a line ends. -/
noncomputable def tailDirection (path : PixelPath) : Direction :=
  match path.getLast?, path[path.length - 4]? with
  | some tail, some inner => if path.length < 2 then (0, 0) else directionTo inner tail
  | _, _ => (0, 0)

/-- The pixels between the ends of a merge. -/
def bridgePixels (start stop : Pixel) : PixelPath :=
  let steps := max |stop.x - start.x| |stop.y - start.y|
  (List.range (steps.toNat - 1)).map fun k =>
    let fraction : ℚ := ((k : ℚ) + 1) / steps
    ⟨roundHalfEven (start.x + (stop.x - start.x) * fraction),
      roundHalfEven (start.y + (stop.y - start.y) * fraction)⟩

/-- Two lines, one after the other. -/
def mergePixelPaths (first second : PixelPath) : PixelPath :=
  match first.getLast?, second.head? with
  | some stop, some start =>
      if stop = start then first ++ second.tail
      else first ++ bridgePixels stop start ++ second
  | _, _ => first ++ second

/-- A merge of two of the lines: which, and in which directions. -/
structure Merge (count : ℕ) where
  first : ℕ
  second : ℕ
  lt_second : first < second
  second_lt : second < count
  firstReverse : Bool
  secondReverse : Bool

/-- A line in a direction. -/
def oriented (path : PixelPath) (reverse : Bool) : PixelPath :=
  if reverse then path.reverse else path

/-- The merges of the lines with the given indices, in the order they are looked at. -/
def mergesOf {count : ℕ} (first second : ℕ) (h : first < second) (h' : second < count) :
    List (Merge count) :=
  [(false, false), (false, true), (true, false), (true, true)].map fun reverse =>
    ⟨first, second, h, h', reverse.1, reverse.2⟩

/-- All merges, in the order they are looked at. -/
def allMerges (count : ℕ) : List (Merge count) :=
  (List.finRange count).flatMap fun first =>
    ((List.finRange count).filter fun second => first < second).attach.flatMap fun second =>
      mergesOf first second.val (by simpa using (List.mem_filter.mp second.property).2)
        second.val.isLt

section Merging

variable {paths : List PixelPath}

/-- The lines of a merge, in their directions. -/
def Merge.lines (merge : Merge paths.length) : PixelPath × PixelPath :=
  (oriented (paths.getD merge.first []) merge.firstReverse,
    oriented (paths.getD merge.second []) merge.secondReverse)

open Classical in
/-- The score of a merge, when its lines are not single pixels, and their ends are close and
of about the same direction. -/
noncomputable def Merge.score (maxDistancePx maxAngleDeg : ℝ) (merge : Merge paths.length) :
    Option ℝ :=
  let (first, second) := merge.lines
  if first.length < 2 ∨ second.length < 2 then none
  else
    match first.getLast?, second.head? with
    | some firstPoint, some secondPoint =>
        let distance := firstPoint.toPoint.dist secondPoint.toPoint
        let angle := angleBetween (tailDirection first) (headDirection second)
        if maxDistancePx < distance ∨ maxAngleDeg < angle then none
        else some (distance + angle * (5 / 100))
    | _, _ => none

open Classical in
/-- Look at a merge: it is taken when its score is better. -/
noncomputable def considerMerge (maxDistancePx maxAngleDeg : ℝ)
    (best : Option (ℝ × Merge paths.length)) (merge : Merge paths.length) :
    Option (ℝ × Merge paths.length) :=
  match merge.score maxDistancePx maxAngleDeg, best with
  | none, best => best
  | some score, none => some (score, merge)
  | some score, some best => if score < best.1 then some (score, merge) else some best

/-- The best merge there is. -/
noncomputable def findBestMerge (paths : List PixelPath) (maxDistancePx maxAngleDeg : ℝ) :
    Option (Merge paths.length) :=
  ((allMerges paths.length).foldl (considerMerge maxDistancePx maxAngleDeg) none).map Prod.snd

/-- The lines after a merge. -/
def applyMerge (paths : List PixelPath) (merge : Merge paths.length) : List PixelPath :=
  ((paths.eraseIdx merge.second).eraseIdx merge.first) ++
    [mergePixelPaths merge.lines.1 merge.lines.2]

/-- A merge leaves one line less. -/
theorem length_applyMerge (merge : Merge paths.length) :
  (applyMerge paths merge).length + 1 = paths.length
  := by
  have hlt := merge.lt_second
  have hlt' := merge.second_lt
  unfold applyMerge
  rw [List.length_append, List.length_singleton, List.length_eraseIdx_of_lt,
    List.length_eraseIdx_of_lt hlt']
  · omega
  · rw [List.length_eraseIdx_of_lt hlt']
    omega

/-- Merge as long as there is a merge. -/
noncomputable def mergeLoop (maxDistancePx maxAngleDeg : ℝ) : Loop (List PixelPath) where
  step paths := (findBestMerge paths maxDistancePx maxAngleDeg).map (applyMerge paths)
  measure paths := paths.length
  decreases := by
    intro paths paths' h
    obtain ⟨merge, -, rfl⟩ := Option.map_eq_some_iff.mp h
    have := length_applyMerge merge
    omega

end Merging

/-! ### Lines along a longer line -/

/-- The direction of a line. -/
noncomputable def pathDirection (path : PixelPath) : Direction :=
  match path.head?, path.getLast?, path[path.length / 2]? with
  | some start, some stop, some middle =>
      if path.length < 2 then (0, 0)
      else if start = stop ∧ 2 < path.length then directionTo start middle
      else directionTo start stop
  | _, _, _ => (0, 0)

/-- The angle between two directions, whichever way they point. -/
noncomputable def undirectedAngleBetween (first second : Direction) : ℝ :=
  let angle := angleBetween first second
  min angle (180 - angle)

/-- A point of the plane. -/
abbrev RealPoint := ℝ × ℝ

/-- The points of a segment at a spacing, without the last one. -/
noncomputable def sampleSegment (spacingPx : ℝ) (start stop : Pixel) : List RealPoint :=
  let length := start.toPoint.dist stop.toPoint
  let steps := max 1 ⌈length / max spacingPx (1 / 1000000)⌉₊
  (List.range steps).map fun step =>
    let fraction : ℝ := step / steps
    ((start.x : ℝ) + ((stop.x : ℝ) - start.x) * fraction,
      (start.y : ℝ) + ((stop.y : ℝ) - start.y) * fraction)

/-- The points of a line at a spacing. -/
noncomputable def samplePathPoints (path : PixelPath) (spacingPx : ℝ) : List RealPoint :=
  if path.length < 2 then []
  else
    (path.zip path.tail).flatMap (fun segment => sampleSegment spacingPx segment.1 segment.2) ++
      path.getLast?.toList.map fun last => ((last.x : ℝ), (last.y : ℝ))

open Classical in
/-- The distance of a point from a segment. -/
noncomputable def pointSegmentDistance (point : RealPoint) (start stop : Pixel) : ℝ :=
  let deltaX : ℝ := (stop.x : ℝ) - start.x
  let deltaY : ℝ := (stop.y : ℝ) - start.y
  let lengthSquared := deltaX * deltaX + deltaY * deltaY
  if lengthSquared = 0 then hypot (point.1 - start.x) (point.2 - start.y)
  else
    let fraction := max 0
      (min 1 (((point.1 - start.x) * deltaX + (point.2 - start.y) * deltaY) / lengthSquared))
    hypot (point.1 - (start.x + fraction * deltaX)) (point.2 - (start.y + fraction * deltaY))

/-- The distance of a point from a line, which is infinite for a line without segments. -/
noncomputable def minDistanceToPolyline (point : RealPoint) (path : PixelPath) : WithTop ℝ :=
  ((path.zip path.tail).map fun segment =>
    (pointSegmentDistance point segment.1 segment.2 : WithTop ℝ)).foldl min ⊤

open Classical in
/-- The part of the points of a line that are close to another line. -/
noncomputable def pathOverlapRatio (shortPath longPath : PixelPath) (maxDistancePx : ℝ) : ℝ :=
  let samples := samplePathPoints shortPath (max (1 / 2) (maxDistancePx / 2))
  if samples = [] then 0
  else
    ((samples.countP fun point => decide (minDistanceToPolyline point longPath ≤ maxDistancePx) :
      ℕ) : ℝ) / samples.length

/-- A line runs along one of the long lines. -/
def IsRedundantShortPath (config : PathPlanConfig) (distancePx : ℝ) (paths : List PixelPath)
    (shortLimitPx : ℝ) (index : ℕ) (path : PixelPath) : Prop :=
  ∃ other ∈ paths.zipIdx, shortLimitPx ≤ pixelLength other.1 ∧ other.2 ≠ index ∧
    pixelLength path < pixelLength other.1 ∧
    undirectedAngleBetween (pathDirection path) (pathDirection other.1) ≤
      (config.dedupeAngleDeg.val : ℝ) ∧
    (config.dedupeOverlapRatio.val : ℝ) ≤ pathOverlapRatio path other.1 distancePx

open Classical in
/-- The lines without the short ones that run along a longer one. -/
noncomputable def dedupeOverlappingShortPaths (paths : List PixelPath) (scale : ℚ)
    (config : PathPlanConfig) : List PixelPath :=
  let shortLimitPx : ℚ := config.dedupeShortPathLengthMm.val / max scale (1 / 1000000)
  let distancePx : ℚ := config.dedupeDistanceMm.val / max scale (1 / 1000000)
  if shortLimitPx ≤ 0 ∨ distancePx < 0 ∨ config.dedupeOverlapRatio.val ≤ 0 then paths
  else
    (paths.zipIdx.filter fun path =>
      decide ¬ (0 < pixelLength path.1 ∧ pixelLength path.1 < shortLimitPx ∧
        IsRedundantShortPath config distancePx paths shortLimitPx path.2 path.1)).map Prod.fst

/-! ### The strokes that are drawn -/

open Classical in
/-- The lines that are drawn. -/
noncomputable def postprocessStrokePaths (pathsPx : List PixelPath) (scale : ℚ)
    (config : PathPlanConfig) : List PixelPath :=
  let minKeepPx : ℚ := max 0 (config.dropShortStrokeMm.val / max scale (1 / 1000000))
  let maxDistancePx : ℚ := config.mergeEndpointDistanceMm.val / max scale (1 / 1000000)
  let paths := pathsPx.filter fun path => decide ((minKeepPx : ℝ) ≤ pixelLength path)
  dedupeOverlappingShortPaths
    ((mergeLoop maxDistancePx config.mergeAngleDeg.val).run paths) scale config

end DrawingMachine
