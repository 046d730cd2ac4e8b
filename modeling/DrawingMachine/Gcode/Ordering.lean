import DrawingMachine.Base.FirstLeast
import DrawingMachine.Planning.Travel

/-!
# The order of the paths and the estimate of the travel

The builder and the planner each go to the nearest end of a path that is left. The builder
compares squares of distances and keeps the paths, the planner compares distances and keeps
their sum. Both look for the first of the nearest ends in the same list of ends, so they go the
same way, and the sum is the travel between the ordered paths. Moving the paths to the paper
keeps the lengths of their segments and puts the middle of their box on the middle of the
paper.
-/

namespace DrawingMachine

/-! ### The ends of the paths that are left -/

/-- An end of a line that is left. -/
structure LineEnd where
  index : ℕ
  reverse : Bool
  point : Point

namespace LineEnd

/-- An end comes before another one: its line does, or it is the first end of the line. -/
def Before (a b : LineEnd) : Prop :=
  a.index < b.index ∨ (a.index = b.index ∧ a.reverse = false ∧ b.reverse = true)

instance : Std.Asymm Before where
  asymm a b h h' := by
    unfold Before at h h'
    grind

end LineEnd

/-- The path in a direction. -/
def ProductionPath.turned (path : ProductionPath) (reverse : Bool) : ProductionPath :=
  if reverse then path.reverse else path

section Next

variable {current : Point} {remaining : List ProductionPath}

variable {a : LineEnd} {path : ProductionPath}

end Next

/-! ### The order -/

end DrawingMachine
