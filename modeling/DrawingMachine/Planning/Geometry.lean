import DrawingMachine.Base.Simplify
import DrawingMachine.Gcode.Build
import DrawingMachine.Planning.Models

/-!
# The geometry of the planner

Pixels, their places on the canvas, and the lengths and the simplification of lines. A
coordinate on the canvas is rounded to four decimals as soon as it is computed.
-/

namespace DrawingMachine

/-- A pixel of an image. -/
@[ext]
structure Pixel where
  x : ℤ
  y : ℤ
  deriving DecidableEq, Repr

namespace Pixel

/-- Pixels in the order of Python's tuples. -/
def Before (p q : Pixel) : Prop := p.x < q.x ∨ (p.x = q.x ∧ p.y ≤ q.y)

instance (p q : Pixel) : Decidable (p.Before q) := inferInstanceAs (Decidable (_ ∨ _))

/-- Pixels in their order. -/
def sorted (pixels : List Pixel) : List Pixel := pixels.mergeSort fun p q => decide (p.Before q)

/-- A pixel as a point of the plane. -/
def toPoint (p : Pixel) : Point := ⟨p.x, p.y⟩

end Pixel

/-- A line of pixels. -/
abbrev PixelPath := List Pixel

/-- The length of a line of pixels. -/
noncomputable def pixelLength (path : PixelPath) : ℝ := polylineLength (path.map Pixel.toPoint)

/-! ### The place on the canvas -/

/-- How pixels are placed on the canvas. -/
structure Transform where
  scale : ℚ
  drawWidthMm : ℚ
  drawHeightMm : ℚ
  offsetXMm : ℚ
  offsetYMm : ℚ
  deriving DecidableEq, Repr

/-- The image as large as the canvas allows, in its middle. -/
def drawingTransform (imageWidthPx imageHeightPx : ℕ) (canvasWidthMm canvasHeightMm : ℚ) :
    Transform :=
  let scale := min (canvasWidthMm / max 1 imageWidthPx) (canvasHeightMm / max 1 imageHeightPx)
  let drawWidthMm := imageWidthPx * scale
  let drawHeightMm := imageHeightPx * scale
  { scale, drawWidthMm, drawHeightMm,
    offsetXMm := (canvasWidthMm - drawWidthMm) / 2
    offsetYMm := (canvasHeightMm - drawHeightMm) / 2 }

/-- The place of a pixel on the canvas. -/
def Transform.place (t : Transform) (p : Pixel) : Point :=
  ⟨roundTo 4 (t.offsetXMm + p.x * t.scale), roundTo 4 (t.offsetYMm + p.y * t.scale)⟩

/-- The places of the pixels of a line. -/
def pointsPxToMm (path : PixelPath) (t : Transform) : List Point := path.map t.place

/-! ### The simplification of a line -/

/-- The distance of a point from the line through two points, or from the point these are. -/
noncomputable def pointLineDistance (point start stop : Point) : ℝ :=
  let deltaX := stop.x - start.x
  let deltaY := stop.y - start.y
  if deltaX = 0 ∧ deltaY = 0 then start.dist point
  else
    ((|deltaY * point.x - deltaX * point.y + stop.x * start.y - stop.y * start.x| : ℚ) : ℝ) /
      Real.sqrt ((deltaX ^ 2 + deltaY ^ 2 : ℚ) : ℝ)

/-- The simplification of a line. -/
noncomputable def simplifyPolyline (points : List Point) (toleranceMm : ℝ) : List Point :=
  Simplify.simplify pointLineDistance toleranceMm points

end DrawingMachine
