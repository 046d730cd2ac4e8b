import DrawingMachine.Planning.Hatch
import DrawingMachine.Planning.Postprocess

/-!
# The records of a path plan

The lines of pixels that the planner has found become records of the plan: they are placed
on the canvas, simplified, dropped when they are too short, and written with their length.
The plan here has the production paths and the canvas; its reports and previews are left
out.
-/

namespace DrawingMachine

/-- A number with at least four digits. -/
def fourDigits (index : ℕ) : String :=
  String.ofList (List.replicate (4 - (Nat.toDigits 10 index).length) '0' ++ Nat.toDigits 10 index)

/-- The length of a line as it is written, rounded to four decimals. -/
noncomputable def writtenLength (points : List Point) : ℚ :=
  (roundHalfEven (polylineLength points * 10 ^ 4) : ℚ) / 10 ^ 4

/-- A point as it is written. -/
def writtenPoint (p : Point) : Json := .arr [.num (roundTo 4 p.x), .num (roundTo 4 p.y)]

/-- The points of a line that are kept. -/
noncomputable def simplifiedPoints (points : List Point) (simplifyToleranceMm : ℚ) : List Point :=
  if 0 < simplifyToleranceMm then simplifyPolyline points simplifyToleranceMm else points

open Classical in
/-- The record of a line, or none when the line is too short. -/
noncomputable def pathToRecord (pathId source : String) (points : List Point)
    (simplifyToleranceMm minPathLengthMm : ℚ) (extra : List (String × Json)) : Option Json :=
  let simplified := simplifiedPoints points simplifyToleranceMm
  if simplified.length < 2 ∨ polylineLength simplified < minPathLengthMm then none
  else
    some (.obj ([("id", .str pathId), ("source", .str source),
      ("points_mm", .arr (simplified.map writtenPoint)),
      ("length_mm", .num (writtenLength simplified))] ++ extra))

/-- The records of strokes. -/
noncomputable def buildStrokeRecords (pathsPx : List PixelPath) (t : Transform)
    (config : PathPlanConfig) : List Json :=
  (pathsPx.zipIdx 1).filterMap fun path =>
    pathToRecord ("stroke_" ++ fourDigits path.2) "centerline" (pointsPxToMm path.1 t)
      config.simplifyToleranceMm config.minPathLengthMm []

/-- The records of hatch lines, which are not simplified. -/
noncomputable def buildFillRecords (pathsPx : List PixelPath) (t : Transform)
    (config : PathPlanConfig) : List Json :=
  (pathsPx.zipIdx 1).filterMap fun path =>
    pathToRecord ("fill_" ++ fourDigits path.2) "hatch" (pointsPxToMm path.1 t)
      0 config.minPathLengthMm [("spacing_mm", .num config.hatchSpacingMm)]

/-- A line along the boundary of a region, with the number of the region. -/
structure BoundaryPath where
  regionIndex : ℕ
  path : PixelPath

/-- The record of a line along a boundary. -/
noncomputable def boundaryRecord (t : Transform) (config : PathPlanConfig) (boundaryIndex : ℕ)
    (boundary : BoundaryPath) : Option Json :=
  pathToRecord ("fill_boundary_" ++ fourDigits boundaryIndex) "fill_boundary"
    (pointsPxToMm boundary.path t) config.simplifyToleranceMm config.minPathLengthMm
    [("region_id", .str ("fill_region_" ++ fourDigits boundary.regionIndex))]

/-- The records of lines along boundaries. Only the lines that have a record are counted. -/
noncomputable def boundaryRecords (t : Transform) (config : PathPlanConfig) :
    ℕ → List BoundaryPath → List Json
  | _, [] => []
  | boundaryIndex, boundary :: rest =>
      match boundaryRecord t config boundaryIndex boundary with
      | none => boundaryRecords t config boundaryIndex rest
      | some record => record :: boundaryRecords t config (boundaryIndex + 1) rest

/-! ### The plan -/

section Plan

variable (order : SetOrder) (image : BinarizedImage) (config : PathPlanConfig)

/-- The place of the image on the canvas. -/
def transformOf : Transform :=
  drawingTransform image.width image.height config.canvasWidthMm config.canvasHeightMm

/-- The pixels that are filled. -/
def fillCandidatesOf : Finset Pixel :=
  fillCandidatePixels image.foreground image.width image.height (transformOf image config).scale
    config.hatchMinRunMm config.fillMinThicknessMm

/-- The lines of pixels of the strokes. -/
noncomputable def strokePathsPx : List PixelPath :=
  let skeleton := thin (image.foreground \ fillCandidatesOf image config) image.width image.height
  postprocessStrokePaths (traceSkeletonPaths skeleton image.width image.height order)
    (transformOf image config).scale config

/-- The lines of pixels of the hatching. -/
noncomputable def fillPathsPx : List PixelPath :=
  serpentineFillPaths order image.foreground image.width image.height
    (transformOf image config).scale config.hatchSpacingMm config.hatchMinRunMm
    config.fillMinThicknessMm

/-- The lines of pixels along the boundaries of the regions that are large enough. -/
def boundaryPathsPx : List BoundaryPath :=
  let components :=
    connectedComponents order (fillCandidatesOf image config) image.width image.height
  ((components.zipIdx 1).filter fun component =>
    decide (config.minComponentAreaPx.val ≤ component.1.areaPx)).flatMap fun component =>
      (boundaryPathsForComponent order component.1.pixels image.width image.height).map
        fun path => ⟨component.2, path⟩

/-- The canvas of a plan. -/
def canvasOf : Json :=
  let t := transformOf image config
  .obj [("width_mm", .num (roundTo 4 config.canvasWidthMm.val)),
    ("height_mm", .num (roundTo 4 config.canvasHeightMm.val)),
    ("draw_width_mm", .num (roundTo 4 t.drawWidthMm)),
    ("draw_height_mm", .num (roundTo 4 t.drawHeightMm)),
    ("offset_x_mm", .num (roundTo 4 t.offsetXMm)),
    ("offset_y_mm", .num (roundTo 4 t.offsetYMm)),
    ("mm_per_px", .num (roundTo 6 t.scale)),
    ("pen_width_mm", .num (roundTo 4 config.penWidthMm.val)),
    ("min_gap_mm", .num (roundTo 4 config.minGapMm.val))]

/-- The plan of an image. -/
noncomputable def buildPathPlan : List (String × Json) :=
  let t := transformOf image config
  [("stage", .str "drawable_path_plan_mvp"),
    ("canvas", canvasOf image config),
    ("stroke_paths", .arr (buildStrokeRecords (strokePathsPx order image config) t config)),
    ("fill_paths", .arr (buildFillRecords (fillPathsPx order image config) t config)),
    ("fill_boundary_paths",
      .arr (boundaryRecords t config 1 (boundaryPathsPx order image config)))]

end Plan

end DrawingMachine
