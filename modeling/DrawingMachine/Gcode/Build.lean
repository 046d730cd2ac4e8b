import DrawingMachine.Base.Json
import DrawingMachine.Gcode.StaticCheck

/-!
# The builder

The construction of a G-code candidate from a path plan. The production paths of the plan
are selected and validated, put in an order that keeps the travel short, moved to the
centre of the paper, checked, and rendered line by line.

The report, the metrics and the copy of the plan that the builder returns beside the text
are left out: nothing that decides about a candidate reads them.
-/

namespace DrawingMachine

/-! ### Errors -/

/-- How the builder fails: with an error of the program, or because of its own findings. -/
inductive BuildError where
  | payload (e : ErrorPayload)
  | checks (checks : List SafetyCheck)

/-- The error of an invalid plan. -/
def invalidPlan (message : String) (details : List (String × String)) : BuildError :=
  .payload ⟨"GCODE_BUILD_INVALID", .input, message, false, details⟩

/-- The error of a plan that may not become a candidate. -/
def blockedPlan (message : String) (details : List (String × String)) : BuildError :=
  .payload ⟨"GCODE_BUILD_BLOCKED", .validation, message, false, details⟩

/-! ### Production paths -/

/-- A production path: a polyline with at least two points. -/
structure ProductionPath where
  id : String
  group : String
  source : String
  pointsMm : List Point
  two_le : 2 ≤ pointsMm.length
  deriving DecidableEq

namespace ProductionPath

theorem pointsMm_ne_nil (path : ProductionPath) : path.pointsMm ≠ [] := by
  have := path.two_le
  intro h
  simp [h] at this

/-- The first point of a path. -/
def first (path : ProductionPath) : Point := path.pointsMm.head path.pointsMm_ne_nil

/-- The last point of a path. -/
def last (path : ProductionPath) : Point := path.pointsMm.getLast path.pointsMm_ne_nil

/-- The path in the other direction. -/
def reverse (path : ProductionPath) : ProductionPath :=
  { path with
    pointsMm := path.pointsMm.reverse
    two_le := by simpa using path.two_le }

/-- The path with every point moved. -/
def map (f : Point → Point) (path : ProductionPath) : ProductionPath :=
  { path with
    pointsMm := path.pointsMm.map f
    two_le := by simpa using path.two_le }

end ProductionPath

/-- The segments between consecutive points. -/
def segmentsOf : List Point → List Segment
  | [] => []
  | [_] => []
  | p :: q :: rest => ⟨p, q⟩ :: segmentsOf (q :: rest)

/-- The length of a polyline. -/
noncomputable def polylineLength (points : List Point) : ℝ :=
  ((segmentsOf points).map Segment.length).sum

/-! ### The selection of the production paths -/

/-- A group of production paths: its name, the field of the plan it is in, the source its
paths have, and what their identifiers start with. -/
structure PathGroup where
  group : String
  field : String
  expectedSource : String
  identifierStart : String

/-- The groups of production paths. -/
def pathGroups : List PathGroup :=
  [⟨"fill", "fill_paths", "hatch", "fill_"⟩,
    ⟨"stroke", "stroke_paths", "centerline", "stroke_"⟩,
    ⟨"boundary", "fill_boundary_paths", "fill_boundary", "fill_boundary_"⟩]

/-- The identifier is the start of the group and at least four digits. -/
def MatchesIdentifier (start identifier : String) : Prop :=
  start.toList <+: identifier.toList ∧ start.toList.length + 4 ≤ identifier.toList.length ∧
    ∀ c ∈ identifier.toList.drop start.toList.length, '0'.toNat ≤ c.toNat ∧ c.toNat ≤ '9'.toNat

instance (start identifier : String) : Decidable (MatchesIdentifier start identifier) :=
  inferInstanceAs (Decidable (_ ∧ _))

/-- A coordinate of a point. -/
def readCoordinate (value : Json) (field : String) : Except BuildError ℚ :=
  match value with
  | .num q => .ok q
  | _ => .error (invalidPlan (field ++ " coordinates must be numbers") [("field", field)])

/-- A point of a path. -/
def readPoint (value : Json) (field : String) : Except BuildError Point :=
  match value with
  | .arr [x, y] => do
      let x ← readCoordinate x field
      let y ← readCoordinate y field
      return ⟨x, y⟩
  | _ => .error (invalidPlan (field ++ " must be a two-number point") [("field", field)])

/-- The name of an item of a list. -/
def itemName (field : String) (index : Nat) : String := field ++ "[" ++ toString index ++ "]"

/-- Read the items of a list one after the other. -/
def readItems {α : Type} (read : Json → String → Except BuildError α) (field : String) :
    Nat → List Json → Except BuildError (List α)
  | _, [] => .ok []
  | index, item :: items => do
      let a ← read item (itemName field index)
      let rest ← readItems read field (index + 1) items
      return a :: rest

/-- The points of a path: at least two. -/
def readPoints (value : Option Json) (field : String) :
    Except BuildError { points : List Point // 2 ≤ points.length } :=
  match value with
  | some (.arr items) =>
      if items.length < 2 then
        .error (invalidPlan (field ++ " must contain at least two points") [("field", field)])
      else do
        let points ← readItems readPoint field 0 items
        if h : 2 ≤ points.length then
          return ⟨points, h⟩
        else
          .error (invalidPlan (field ++ " must contain at least two points") [("field", field)])
  | _ => .error (invalidPlan (field ++ " must contain at least two points") [("field", field)])

/-- A text that is not empty. -/
def readNonemptyString (value : Option Json) (message field : String) :
    Except BuildError String :=
  match value with
  | some (.str s) => if s = "" then .error (invalidPlan message [("field", field)]) else .ok s
  | _ => .error (invalidPlan message [("field", field)])

/-- A positive number of the plan. -/
def planNumber (value : Option Json) (field : String) : Except BuildError ℚ :=
  match value with
  | some (.num q) =>
      if q ≤ 0 then
        .error (invalidPlan (field ++ " must be a finite positive number") [("field", field)])
      else .ok q
  | _ => .error (invalidPlan (field ++ " must be a finite positive number") [("field", field)])

open Classical in
/-- A production path of a group. -/
noncomputable def readPath (group : PathGroup) (value : Json) (field : String) :
    Except BuildError ProductionPath :=
  match value with
  | .obj item => do
      let source ← readNonemptyString (Json.lookup item "source")
        "production path source must be a non-empty string" (field ++ ".source")
      let identifier ← readNonemptyString (Json.lookup item "id")
        "production path id must be a non-empty string" (field ++ ".id")
      let points ← readPoints (Json.lookup item "points_mm") (field ++ ".points_mm")
      rejectIf (source ≠ group.expectedSource ∨
          ¬ MatchesIdentifier group.identifierStart identifier)
        (blockedPlan
          "A preview centerline or non-production path record cannot become a machine candidate."
          [("field", group.field), ("source", source), ("id", identifier)])
      rejectIf (polylineLength points.val ≤ 0)
        (blockedPlan "A production path must contain positive finite geometry."
          [("field", field ++ ".points_mm"), ("id", identifier)])
      let metadataLength ← planNumber (Json.lookup item "length_mm") (field ++ ".length_mm")
      rejectIf ((metadataLength : ℝ) ≠ roundTo 4 (polylineLength points.val))
        (invalidPlan "production path length_mm must match points_mm at four-decimal precision"
          [("field", field ++ ".length_mm")])
      return ⟨identifier, group.group, source, points.val, points.property⟩
  | _ => .error (invalidPlan (field ++ " must be an object") [("field", field)])

/-- The production paths of a group. -/
noncomputable def readGroup (plan : List (String × Json)) (group : PathGroup) :
    Except BuildError (List ProductionPath) :=
  match Json.lookup plan group.field with
  | some (.arr items) => readItems (readPath group) ("path_plan." ++ group.field) 0 items
  | _ =>
      .error (invalidPlan ("path_plan." ++ group.field ++ " must be an array")
        [("field", "path_plan." ++ group.field)])

/-- The production paths of groups, one group after the other. -/
noncomputable def readGroups (plan : List (String × Json)) :
    List PathGroup → Except BuildError (List ProductionPath)
  | [] => .ok []
  | group :: groups => do
      let paths ← readGroup plan group
      let rest ← readGroups plan groups
      return paths ++ rest

/-- The production paths of a plan. -/
noncomputable def selectProductionPaths (plan : List (String × Json)) :
    Except BuildError (List ProductionPath) :=
  readGroups plan pathGroups

/-! ### The order of the paths -/

/-- The path that is drawn next: its index, whether it is reversed, and the square of its
distance, which is infinite as long as no path has been looked at. -/
structure Choice where
  index : Nat
  reverse : Bool
  distSquared : Option ℚ
  deriving DecidableEq, Repr

/-- The distance is shorter than that of the choice. -/
def Choice.Improves (choice : Choice) (distSquared : ℚ) : Prop :=
  ∀ best, choice.distSquared = some best → distSquared < best

instance (choice : Choice) (d : ℚ) : Decidable (choice.Improves d) :=
  match h : choice.distSquared with
  | none => .isTrue fun best hb => by rw [h] at hb; cases hb
  | some best =>
      if hd : d < best then .isTrue fun b hb => by rw [h] at hb; cases hb; exact hd
      else .isFalse fun hall => hd (hall best h)

/-- Look at a path: first from its start, then from its end. -/
def Choice.consider (current : Point) (choice : Choice) (candidate : ProductionPath × Nat) :
    Choice :=
  let start := current.distSquared candidate.1.first
  let stop := current.distSquared candidate.1.last
  let choice := if choice.Improves start then ⟨candidate.2, false, some start⟩ else choice
  if choice.Improves stop then ⟨candidate.2, true, some stop⟩ else choice

/-- The path that is drawn next from the current point. -/
def chooseNext (current : Point) (remaining : List ProductionPath) : Choice :=
  remaining.zipIdx.foldl (Choice.consider current) ⟨0, false, none⟩

/-- Draw the remaining paths, `fuel` of them at most, from the current point. -/
def orderFrom : Nat → Point → List ProductionPath → List ProductionPath
  | 0, _, _ => []
  | fuel + 1, current, remaining =>
      let choice := chooseNext current remaining
      match remaining[choice.index]? with
      | none => []
      | some path =>
          let path := if choice.reverse then path.reverse else path
          path :: orderFrom fuel path.last (remaining.eraseIdx choice.index)

/-- The paths in the order they are drawn. -/
def orderedPaths (paths : List ProductionPath) : List ProductionPath :=
  orderFrom paths.length ⟨0, 0⟩ paths

/-! ### The place of the drawing on the paper -/

/-- The points of paths. -/
def allPoints (paths : List ProductionPath) : List Point := paths.flatMap ProductionPath.pointsMm

/-- The point on the paper of a point of the drawing. -/
def toPaper (profile : MachineBuildProfile) (bounds : Bounds) (p : Point) : Point :=
  ⟨profile.val.paperCenterX + (p.x - (bounds.minX + bounds.maxX) / 2),
    profile.val.paperCenterY - (p.y - (bounds.minY + bounds.maxY) / 2)⟩

/-- Move the paths to the centre of the paper. -/
def transformPaths (paths : List ProductionPath) (profile : MachineBuildProfile) :
    List ProductionPath :=
  paths.map (ProductionPath.map (toPaper profile (boundsOf (allPoints paths))))

/-- A point as it is written to the text. -/
def quantize (p : Point) : Point := ⟨roundTo 3 p.x, roundTo 3 p.y⟩

open Classical in
/-- Every path keeps a positive length when it is written. -/
noncomputable def validateOutputGeometry : List ProductionPath → Except BuildError Unit
  | [] => .ok ()
  | path :: paths => do
      rejectIf (polylineLength (path.pointsMm.map quantize) ≤ 0)
        (blockedPlan
          "A production path has no positive finite geometry after G-code coordinate quantization."
          [("id", path.id)])
      validateOutputGeometry paths

/-! ### The findings of the builder -/

/-- The finding about a path that leaves the machine. -/
def outOfBounds : SafetyCheck :=
  ⟨.blocker, "machine_coordinate_out_of_bounds", [.text "A path exceeds machine bounds."]⟩

open Classical in
/-- The number of very short paths. -/
noncomputable def shortPaths (paths : List ProductionPath) : Nat :=
  paths.countP fun path => decide (polylineLength path.pointsMm < 2 / 10)

/-- The findings of the builder. -/
noncomputable def buildChecks (plan : List (String × Json)) (ordered : List ProductionPath)
    (profile : MachineBuildProfile) : Except BuildError (List SafetyCheck) :=
  match Json.lookup plan "canvas" with
  | some (.obj canvas) => do
      let width ← planNumber (Json.lookup canvas "width_mm") "path_plan.canvas.width_mm"
      let height ← planNumber (Json.lookup canvas "height_mm") "path_plan.canvas.height_mm"
      let bounds := boundsOf (allPoints ordered)
      return ordered.filterMap (fun path =>
          if ∃ p ∈ path.pointsMm,
              CheckState.Outside profile.val.machineWidthMm profile.val.machineHeightMm p then
            some outOfBounds
          else none) ++
        (if bounds.spanX > width + 1 / 1000 ∨ bounds.spanY > height + 1 / 1000 then
          [⟨.warning, "canvas_span",
            [.text "Transformed drawing span ", .fixed bounds.spanX, .text " x ",
              .fixed bounds.spanY, .text " mm exceeds plan canvas ", .fixed width, .text " x ",
              .fixed height, .text " mm."]⟩]
          else []) ++
        (if shortPaths ordered ≠ 0 then
          [⟨.info, "very_short_paths",
            [.count (shortPaths ordered), .text " paths are shorter than 0.2 mm."]⟩]
          else []) ++
        [⟨.info, "z_axis_pen_lift", [.text "G-code uses Z-axis pen up/down commands."]⟩,
          ⟨.info, "static_only",
            [.text "This is a static generation result; it is not machine-run validation."]⟩]
  | _ =>
      .error (invalidPlan "path_plan.canvas must be an object" [("field", "path_plan.canvas")])

/-! ### The text -/

section Render

variable (py : PythonPrinter)

/-- The line that moves the pen to a height. -/
def penLine (z feed : ℚ) : Text :=
  "G1 Z".toList ++ fixedText 3 z ++ " F".toList ++ fixedText 1 feed

/-- The line that moves the tool to a point. -/
def moveLine (command : String) (p : Point) (feed : ℚ) : Text :=
  command.toList ++ " X".toList ++ fixedText 3 p.x ++ " Y".toList ++ fixedText 3 p.y ++
    " F".toList ++ fixedText 1 feed

/-- The lines of a path. -/
def renderPath (profile : MachineBuildProfile) (path : ProductionPath) : List Text :=
  [("; path " ++ path.id ++ " group=" ++ path.group ++ " source=" ++ path.source).toList,
    moveLine "G0" path.first profile.val.feedTravel,
    penLine profile.val.penDownZ profile.val.feedPenDown] ++
  path.pointsMm.tail.map (moveLine "G1" · profile.val.feedDraw) ++
  [penLine profile.val.penUpZ profile.val.feedPenUp]

/-- The label of a plan. -/
def inputLabel (plan : List (String × Json)) : Text :=
  py.print ((Json.lookup plan "input").getD (.str "unknown"))

/-- The number as `str` prints it. -/
def printNumber (q : ℚ) : Text := py.print (.num q)

/-- The lines in front of the paths. -/
def renderStart (plan : List (String × Json)) (profile : MachineBuildProfile) : List Text :=
  ["; Generated from drawable path_plan.json".toList,
    "; Static candidate only. Review before sending to any CNC controller.".toList,
    "; Source: ".toList ++ inputLabel py plan,
    "; Path mode: stroke (fill_paths + stroke_paths + fill_boundary_paths)".toList,
    ("; Coordinate transform: align_mode=center, mirror_x=False, mirror_y=True, " ++
      "anchor_x=0.0, anchor_y=0.0, paper_center_x=").toList ++
      printNumber py profile.val.paperCenterX ++ ", paper_center_y=".toList ++
      printNumber py profile.val.paperCenterY,
    "; Pen lift: Z-axis, up=".toList ++ printNumber py profile.val.penUpZ ++ ", down=".toList ++
      printNumber py profile.val.penDownZ,
    "G21 ; millimeters".toList,
    "G90 ; absolute coordinates".toList,
    profile.val.workCoordinate.toList ++ " ; work coordinate".toList,
    penLine profile.val.penUpZ profile.val.feedPenUp]

/-- The lines of a candidate. -/
def renderLines (plan : List (String × Json)) (ordered : List ProductionPath)
    (profile : MachineBuildProfile) : List Text :=
  renderStart py plan profile ++ ordered.flatMap (renderPath profile) ++ ["; End".toList]

/-- The text of a candidate. -/
def renderGcode (plan : List (String × Json)) (ordered : List ProductionPath)
    (profile : MachineBuildProfile) : Text :=
  (renderLines py plan ordered profile).flatMap (· ++ ['\n'])

end Render

/-- What the builder returns. -/
structure GcodeBuildResult where
  gcode : Text
  checks : List SafetyCheck

/-- The construction of a candidate from a path plan. -/
noncomputable def buildGcode (py : PythonPrinter) (plan : List (String × Json))
    (profile : MachineBuildProfile) : Except BuildError GcodeBuildResult := do
  rejectIf (profile.val.pathMode ≠ "stroke")
    (blockedPlan "Only stroke path mode is eligible for machine G-code."
      [("path_mode", profile.val.pathMode)])
  let selected ← selectProductionPaths plan
  rejectIf (selected.isEmpty = true)
    (blockedPlan "Path plan has no production paths." [("path_mode", profile.val.pathMode)])
  let transformed := transformPaths (orderedPaths selected) profile
  validateOutputGeometry transformed
  let checks ← buildChecks plan transformed profile
  rejectIf (∃ check ∈ checks, check.IsBlocker) (BuildError.checks checks)
  return ⟨renderGcode py plan transformed profile, checks⟩

end DrawingMachine
