import DrawingMachine.Base.Loop
import DrawingMachine.Gcode.Build

/-!
# The estimate of the travel

What the planner expects the pen to travel between the paths of a plan: from the origin always
to the nearest end of a path that is left. A distance is infinite as long as no path has been
looked at.
-/

namespace DrawingMachine

/-- A line with at least two points. -/
abbrev Polyline := { points : List Point // 2 ≤ points.length }

namespace Polyline

theorem ne_nil (line : Polyline) : line.val ≠ [] := by
  have := line.property
  intro h
  simp [h] at this

/-- The first point of a line. -/
def first (line : Polyline) : Point := line.val.head line.ne_nil

/-- The last point of a line. -/
def last (line : Polyline) : Point := line.val.getLast line.ne_nil

/-- The line in a direction. -/
def turned (line : Polyline) (reverse : Bool) : Polyline :=
  if reverse then ⟨line.val.reverse, by simpa using line.property⟩ else line

end Polyline

/-- The end of a line that is nearest so far: the index of the line, whether it is its last
point, and its distance. -/
structure NearestEnd where
  index : ℕ
  reverse : Bool
  distance : WithTop ℝ

/-- Look at a line: first at its start, then at its end. -/
noncomputable def NearestEnd.consider (current : Point) (best : NearestEnd)
    (line : Polyline × ℕ) : NearestEnd :=
  let startDistance : WithTop ℝ := current.dist line.1.first
  let endDistance : WithTop ℝ := current.dist line.1.last
  let best := if startDistance < best.distance then ⟨line.2, false, startDistance⟩ else best
  if endDistance < best.distance then ⟨line.2, true, endDistance⟩ else best

/-- The end that is nearest to the current point. -/
noncomputable def nearestEnd (current : Point) (remaining : List Polyline) : NearestEnd :=
  remaining.zipIdx.foldl (NearestEnd.consider current) ⟨0, false, ⊤⟩

/-- How far the pen has travelled: the lines that are left, where it is, and the distance. -/
structure Travel where
  remaining : List Polyline
  current : Point
  travel : WithTop ℝ

/-- Travel to the nearest end of a line and along the line. -/
noncomputable def Travel.step (s : Travel) : Option Travel :=
  let best := nearestEnd s.current s.remaining
  (s.remaining[best.index]?).map fun line =>
    ⟨s.remaining.eraseIdx best.index, (line.turned best.reverse).last, s.travel + best.distance⟩

end DrawingMachine
