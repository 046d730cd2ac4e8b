import DrawingMachine.Gcode.Geometry
import DrawingMachine.Gcode.Words

/-!
# The static check

The check of a G-code text that decides whether it may become a candidate. It reads the
text line by line, keeping what the lines so far amount to in a `CheckState`. A line is
read in stages, and a stage may skip the rest of the line: a stage that does returns its
state as an error, `.error s`.
-/

namespace DrawingMachine

/-- The modal motion: `G0` or `G1`. -/
inductive Motion where
  | rapid | linear
  deriving DecidableEq, Repr

/-- What the lines read so far amount to. The length of a draw path is the sum of the
lengths of its segments, so a path is kept as the list of them. -/
structure CheckState where
  x : ℚ
  y : ℚ
  z : ℚ
  activeMotion : Option Motion
  drawSegments : List Segment
  hasPositiveFiniteDrawGeometry : Bool
  travelSegments : List Segment
  drawPaths : List (List Segment)
  currentDrawPath : List Segment
  inDrawPath : Bool
  penLifts : Nat
  penDowns : Nat
  maxFeedSeen : ℚ
  commandCount : Nat
  checks : List SafetyCheck
  sawUnits : Bool
  sawAbsolute : Bool
  sawWorkCoordinate : Bool
  sawInitialPenUp : Bool
  unsafeMotionBeforeInitialPenUp : Bool
  sawMotion : Bool
  endMarkerLine : Option Nat
  sendableAfterEndMarker : Bool
  lastSendableLine : Option Nat
  lastExplicitPenUpLine : Option Nat
  deriving DecidableEq, Repr

namespace CheckState

/-- The state before the first line. -/
def initial (options : StaticCheckOptions) : CheckState where
  x := options.startX
  y := options.startY
  z := options.startZ.getD options.penUpZ
  activeMotion := none
  drawSegments := []
  hasPositiveFiniteDrawGeometry := false
  travelSegments := []
  drawPaths := []
  currentDrawPath := []
  inDrawPath := false
  penLifts := 0
  penDowns := 0
  maxFeedSeen := 0
  commandCount := 0
  checks := []
  sawUnits := false
  sawAbsolute := false
  sawWorkCoordinate := false
  sawInitialPenUp := false
  unsafeMotionBeforeInitialPenUp := false
  sawMotion := false
  endMarkerLine := none
  sendableAfterEndMarker := false
  lastSendableLine := none
  lastExplicitPenUpLine := none

/-- Record a finding that blocks the candidate. -/
def block (s : CheckState) (code : String) (message : List MessagePart) : CheckState :=
  { s with checks := s.checks ++ [⟨.blocker, code, message⟩] }

/-- The message of a finding about a line. -/
def lineMessage (lineNo : Nat) (parts : List MessagePart) : List MessagePart :=
  [.text "Line ", .count lineNo, .text ": "] ++ parts

/-- The position in the drawing plane. -/
def position (s : CheckState) : Point := ⟨s.x, s.y⟩

/-! ### The stages of a line -/

/-- The end marker is noted whatever else the line is. -/
def noteEndMarker (lineNo : Nat) (rawLine : Text) (s : CheckState) : CheckState :=
  if Text.strip rawLine = "; End".toList then { s with endMarkerLine := some lineNo } else s

/-- A line with a command is noted. -/
def noteSendable (lineNo : Nat) (s : CheckState) : CheckState :=
  { s with
    sendableAfterEndMarker := s.sendableAfterEndMarker || s.endMarkerLine.isSome
    lastSendableLine := some lineNo }

/-- The stage of the words: a line with an issue is skipped. -/
def checkIssues (lineNo : Nat) (issues : List WordIssue) (s : CheckState) :
    Except CheckState CheckState :=
  let malformed := issues.filter WordIssue.isMalformed
  let unknown := issues.filter fun issue => !issue.isMalformed
  if malformed ≠ [] then
    .error (s.block "malformed_line"
      (lineMessage lineNo
        [.text "malformed G-code words ", .texts (issueTexts malformed), .text "."]))
  else if unknown ≠ [] then
    if ∃ issue ∈ unknown, issue ≠ .unknown 'M' ∧ issue ≠ .unknown 'S' then
      .error (s.block "malformed_line"
        (lineMessage lineNo
          [.text "malformed or unsupported words ", .texts (issueTexts unknown), .text "."]))
    else
      .error (s.block "unknown_word"
        (lineMessage lineNo
          [.text "unsupported words ", .texts (issueTexts unknown), .text "."]))
  else
    .ok s

/-- The stage of the `G` word. -/
def checkG (lineNo : Nat) (words : Words) (s : CheckState) : Except CheckState CheckState :=
  match words .G with
  | none => .ok s
  | some value =>
      if value.den ≠ 1 then
        .error (s.block "malformed_line"
          (lineMessage lineNo [.text "fractional G code is invalid."]))
      else
        let g := value.num
        if g = 20 then
          .error (s.block "unsafe_units" (lineMessage lineNo [.text "inch units are forbidden."]))
        else if g = 21 then
          .ok { s with sawUnits := !s.sawMotion }
        else if g = 90 then
          .ok { s with sawAbsolute := !s.sawMotion }
        else if g = 91 then
          .error (s.block "unsafe_coordinate_mode"
            (lineMessage lineNo [.text "incremental coordinates are forbidden."]))
        else if g = 54 then
          .ok { s with sawWorkCoordinate := !s.sawMotion }
        else if g = 55 ∨ g = 56 ∨ g = 57 ∨ g = 58 ∨ g = 59 then
          .error (s.block "unsafe_work_coordinate"
            (lineMessage lineNo
              [.text "G", .integer g, .text " is not the required G54 work coordinate."]))
        else if g = 0 then
          .ok { s with sawMotion := true, activeMotion := some .rapid }
        else if g = 1 then
          .ok { s with sawMotion := true, activeMotion := some .linear }
        else
          .error (s.block "unsupported_g_command"
            (lineMessage lineNo [.text "G", .integer g, .text " is not allowed."]))

/-- The stage of the `F` word. A feed over the limit blocks the candidate, but the line is
still read to its end. -/
def checkF (options : StaticCheckOptions) (lineNo : Nat) (words : Words) (s : CheckState) :
    Except CheckState CheckState :=
  match words .F with
  | none => .ok s
  | some feed =>
      if feed ≤ 0 then
        .error (s.block "malformed_line"
          (lineMessage lineNo [.text "feed must be finite and positive."]))
      else
        let s := { s with maxFeedSeen := max s.maxFeedSeen feed }
        if feed > options.maxFeed then
          .ok (s.block "feed_exceeds_limit"
            (lineMessage lineNo
              [.text "feed ", .number feed, .text " exceeds ", .number options.maxFeed,
                .text "."]))
        else
          .ok s

/-- The names of the axes a line has words for. -/
def axisWords (words : Words) : List String :=
  (if (words .X).isSome then ["X"] else []) ++ (if (words .Y).isSome then ["Y"] else []) ++
    (if (words .Z).isSome then ["Z"] else [])

/-- The stage of the modal motion: without one, axis words block the candidate. -/
def checkActiveMotion (lineNo : Nat) (words : Words) (s : CheckState) :
    Except CheckState (Motion × CheckState) :=
  match s.activeMotion with
  | some motion => .ok (motion, s)
  | none =>
      if axisWords words ≠ [] then
        .error (block { s with unsafeMotionBeforeInitialPenUp := true }
          "axis_without_local_motion"
          (lineMessage lineNo
            [.text "axis words ", .texts (axisWords words),
              .text " require a prior file-local G0 or G1."]))
      else
        .error s

/-- Move to the position the axis words give. -/
def moveTo (words : Words) (s : CheckState) : CheckState :=
  { s with
    x := (words .X).getD s.x
    y := (words .Y).getD s.y
    z := (words .Z).getD s.z }

/-- Two numbers are at most `tolerance` apart. -/
def Near (value target tolerance : ℚ) : Prop := |value - target| ≤ tolerance

instance (value target tolerance : ℚ) : Decidable (Near value target tolerance) :=
  inferInstanceAs (Decidable (_ ≤ _))

/-- A motion in the plane, or one that does not lift the pen, is unsafe before the pen was
lifted for the first time. -/
def noteUnsafeMotion (options : StaticCheckOptions) (words : Words) (s : CheckState) :
    CheckState :=
  let zChanged := (words .Z).isSome
  let xyChanged := (words .X).isSome || (words .Y).isSome
  let isPenUp := zChanged && decide (Near s.z options.penUpZ options.zTolerance)
  if !s.sawInitialPenUp && (xyChanged || (zChanged && !isPenUp)) then
    { s with unsafeMotionBeforeInitialPenUp := true }
  else
    s

/-- Close the draw path, if there is one. -/
def closeDrawPath (s : CheckState) : CheckState :=
  if s.inDrawPath then
    { s with
      drawPaths := s.drawPaths ++ [s.currentDrawPath]
      currentDrawPath := []
      inDrawPath := false }
  else
    s

/-- The pen was lifted. The first lift counts only when the text has set up units, absolute
coordinates and the work coordinate, and nothing unsafe has moved before. -/
def liftPen (lineNo : Nat) (words : Words) (s : CheckState) : CheckState :=
  let xyChanged := (words .X).isSome || (words .Y).isSome
  let closed := s.closeDrawPath
  { closed with
    lastExplicitPenUpLine := some lineNo
    sawInitialPenUp :=
      if !s.sawInitialPenUp && !s.unsafeMotionBeforeInitialPenUp && !xyChanged &&
          s.sawUnits && s.sawAbsolute && s.sawWorkCoordinate then true
      else s.sawInitialPenUp
    penLifts := s.penLifts + 1 }

/-- The pen was lowered. -/
def lowerPen (s : CheckState) : CheckState :=
  { s with penDowns := s.penDowns + 1, inDrawPath := true }

/-- The stage of a motion of the `Z` axis. -/
def checkZ (options : StaticCheckOptions) (lineNo : Nat) (words : Words) (s : CheckState) :
    CheckState :=
  if (words .Z).isSome then
    if Near s.z options.penUpZ options.zTolerance then
      s.liftPen lineNo words
    else if Near s.z options.penDownZ options.zTolerance then
      s.lowerPen
    else
      s.block "unexpected_z"
        (lineMessage lineNo [.text "unexpected Z ", .number s.z, .text "."])
  else
    s

/-- The stage of a motion in the plane, which starts at `start` and at the height
`startZ`. -/
def checkXY (options : StaticCheckOptions) (lineNo : Nat) (words : Words) (motion : Motion)
    (start : Point) (startZ : ℚ) (s : CheckState) : CheckState :=
  if (words .X).isSome || (words .Y).isSome then
    let segment : Segment := ⟨start, s.position⟩
    let isDown : Bool :=
      decide (startZ ≤ options.penDownZ + options.zTolerance) &&
        decide (s.z ≤ options.penDownZ + options.zTolerance)
    if motion = .linear ∧ isDown = true then
      { s with
        drawSegments := s.drawSegments ++ [segment]
        currentDrawPath := s.currentDrawPath ++ [segment]
        inDrawPath := true
        hasPositiveFiniteDrawGeometry :=
          s.hasPositiveFiniteDrawGeometry || decide (segment.LongerThan 0) }
    else
      let s := { s with travelSegments := s.travelSegments ++ [segment] }
      if isDown = true ∧ segment.LongerThan options.maxPenDownTravelMm then
        s.block "pen_down_travel"
          (lineMessage lineNo
            [.text "pen-down travel segment is ", .root segment.lengthSquared, .text " mm."])
      else
        s
  else
    s

/-- The stages of a line with a modal motion. -/
def checkMotion (options : StaticCheckOptions) (lineNo : Nat) (words : Words) (motion : Motion)
    (s : CheckState) : CheckState :=
  let moved := (s.moveTo words).noteUnsafeMotion options words
  let s := (moved.checkZ options lineNo words).checkXY options lineNo words motion s.position s.z
  { s with commandCount := s.commandCount + 1 }

/-- The stages of a line with a command. -/
def checkCommand (ucd : UnicodeData) (options : StaticCheckOptions) (lineNo : Nat)
    (line : Text) (s : CheckState) : Except CheckState CheckState := do
  let parsed := parseWords ucd line
  let s ← checkIssues lineNo parsed.issues (s.noteSendable lineNo)
  let s ← checkG lineNo parsed.words s
  let s ← checkF options lineNo parsed.words s
  let (motion, s) ← checkActiveMotion lineNo parsed.words s
  return s.checkMotion options lineNo parsed.words motion

/-- The state after a line, whether a stage has skipped the rest of it or not. -/
def settle : Except CheckState CheckState → CheckState
  | .ok s => s
  | .error s => s

/-- The number and the command of a line that is parsed. A blank line and a line with
nothing but comments are not. -/
def parsedLine (numbered : Text × Nat) : Option (Nat × Text) :=
  if commandOf numbered.1 = [] then none else some (numbered.2, commandOf numbered.1)

/-- Read one line. -/
def checkLine (ucd : UnicodeData) (options : StaticCheckOptions) (s : CheckState)
    (numbered : Text × Nat) : CheckState :=
  let s := s.noteEndMarker numbered.2 numbered.1
  match parsedLine numbered with
  | none => s
  | some (lineNo, line) => settle (s.checkCommand ucd options lineNo line)

/-- The lines of a text that are parsed. -/
def parsedLines (gcode : Text) : List (Nat × Text) :=
  (Text.numberedLines gcode).filterMap parsedLine

/-- Read all lines of a text. -/
def checkLines (ucd : UnicodeData) (options : StaticCheckOptions) (gcode : Text) : CheckState :=
  (Text.numberedLines gcode).foldl (checkLine ucd options) (initial options)

/-! ### The findings about the whole text -/

/-- The draw segments that count: none, when none of them has a positive length. -/
def effectiveDrawSegments (s : CheckState) : List Segment :=
  if s.hasPositiveFiniteDrawGeometry then s.drawSegments else []

/-- All segments that count. -/
def allSegments (s : CheckState) : List Segment := s.effectiveDrawSegments ++ s.travelSegments

/-- The text ends with an end marker, behind the last command, and the pen was lifted
before it. -/
def terminalEndMarker (s : CheckState) : Bool :=
  match s.endMarkerLine, s.lastExplicitPenUpLine with
  | some marker, some penUp =>
      decide (penUp < marker) && !s.sendableAfterEndMarker &&
        (match s.lastSendableLine with
          | none => true
          | some sendable => decide (sendable < marker))
  | _, _ => false

/-- The findings about draw geometry, the start and the end of the text. -/
def wholeChecks (options : StaticCheckOptions) (s : CheckState) : List SafetyCheck :=
  (if s.penDowns > 0 ∧ s.hasPositiveFiniteDrawGeometry = false then
    [⟨.blocker, "zero_length_draw_geometry",
      [.text "Candidate has pen-down commands but no positive finite XY draw geometry."]⟩]
    else []) ++
  (if !(s.sawUnits && s.sawAbsolute && s.sawWorkCoordinate && s.sawInitialPenUp) then
    [⟨.blocker, "missing_safe_start",
      [.text "Candidate must begin with G21, G90, G54, and a pen-up move before drawing."]⟩]
    else []) ++
  (if s.terminalEndMarker = false ∨ ¬ Near s.z options.penUpZ options.zTolerance then
    [⟨.blocker, "missing_safe_end",
      [.text "Candidate must end with an explicit pen-up state and end marker."]⟩]
    else [])

/-- The point lies outside of an area with one corner at the origin, with the tolerance of
the bounds checks. -/
def Outside (width height : ℚ) (p : Point) : Prop :=
  p.x < -(1 / 1000) ∨ p.y < -(1 / 1000) ∨ width + 1 / 1000 < p.x ∨ height + 1 / 1000 < p.y

instance (width height : ℚ) (p : Point) : Decidable (Outside width height p) :=
  inferInstanceAs (Decidable (_ ∨ _))

/-- The findings about the bounds of the drawing. -/
def geometryChecks (segments : List Segment) (options : StaticCheckOptions) :
    List SafetyCheck :=
  let ends := segmentEnds segments
  let outCanvas := ends.countP (Outside options.canvasWidthMm options.canvasHeightMm ·)
  let outMachine := ends.countP (Outside options.machineWidthMm options.machineHeightMm ·)
  let bounds := boundsOf ends
  (if outMachine ≠ 0 then
    [⟨.blocker, "machine_bounds",
      [.count outMachine, .text " segment endpoints exceed machine area."]⟩]
    else []) ++
  (if options.canvasBoundsMode = .origin ∧ outCanvas ≠ 0 then
    [⟨.warning, "canvas_bounds",
      [.count outCanvas, .text " segment endpoints exceed configured canvas area."]⟩]
    else []) ++
  (if options.canvasBoundsMode = .span ∧
      (bounds.spanX > options.canvasWidthMm + 1 / 1000 ∨
        bounds.spanY > options.canvasHeightMm + 1 / 1000) then
    [⟨.warning, "canvas_span",
      [.text "Drawing span ", .fixed bounds.spanX, .text " x ", .fixed bounds.spanY,
        .text " mm exceeds configured canvas ", .fixed options.canvasWidthMm, .text " x ",
        .fixed options.canvasHeightMm, .text " mm."]⟩]
    else [])

/-- The length of a draw path. -/
noncomputable def pathLength (path : List Segment) : ℝ := (path.map Segment.length).sum

open Classical in
/-- The number of draw paths shorter than the advisory bound. -/
noncomputable def shortDrawPaths (options : StaticCheckOptions) (paths : List (List Segment)) :
    Nat :=
  paths.countP fun path => decide (pathLength path < (options.warnShortPathMm : ℝ))

/-- The advisory findings. -/
def summaryChecks (shortCount penLifts penDowns : Nat) (options : StaticCheckOptions) :
    List SafetyCheck :=
  (if penLifts ≠ penDowns + 1 ∧ penLifts ≠ penDowns then
    [⟨.info, "pen_lift_down_mismatch",
      [.text "pen lifts=", .count penLifts, .text ", pen downs=", .count penDowns,
        .text "; review as an advisory path-structure signal."]⟩]
    else []) ++
  (if penLifts > options.warnPenLifts then
    [⟨.info, "many_pen_lifts",
      [.text "Pen lift count ", .count penLifts, .text " exceeds advisory threshold ",
        .count options.warnPenLifts, .text "."]⟩]
    else []) ++
  (if shortCount ≠ 0 then
    [⟨.info, "short_draw_paths",
      [.count shortCount, .text " draw paths are shorter than ",
        .number options.warnShortPathMm, .text " mm."]⟩]
    else [])

/-- The draw paths, the last one included. -/
def finalDrawPaths (s : CheckState) : List (List Segment) := s.closeDrawPath.drawPaths

/-- All findings, given the number of short draw paths. -/
def findings (options : StaticCheckOptions) (shortCount : Nat) (s : CheckState) :
    List SafetyCheck :=
  s.checks ++ s.wholeChecks options ++ geometryChecks s.allSegments options ++
    summaryChecks shortCount s.penLifts s.penDowns options ++
    [⟨.info, "static_only", [.text "Static checks only; no controller validation was performed."]⟩]

end CheckState

/-- The result of the static check, with the part of its summary that later stages read. -/
structure StaticCheckResult where
  checks : List SafetyCheck
  rawLineCount : Nat
  actualSha256 : String
  maxFeedLimit : ℚ
  drawSegmentCount : Nat
  drawLengthMm : ℝ
  drawPathCount : Nat
  penLiftCount : Nat
  penDownCount : Nat
  maxFeedSeen : ℚ

/-- The gate of the result. -/
def StaticCheckResult.gate (result : StaticCheckResult) : StaticGate := gateFromChecks result.checks

/-- The static check of a text. The digest of its bytes is given by `sha256`. -/
noncomputable def analyzeGcode (ucd : UnicodeData) (sha256 : List UInt8 → String)
    (gcode : Text) (options : StaticCheckOptions) : StaticCheckResult :=
  let s := CheckState.checkLines ucd options gcode
  { checks := s.findings options (CheckState.shortDrawPaths options s.finalDrawPaths)
    rawLineCount := (Text.splitlines gcode).length
    actualSha256 := sha256 (Text.encode gcode)
    maxFeedLimit := options.maxFeed
    drawSegmentCount := s.effectiveDrawSegments.length
    drawLengthMm := roundTo 3 (CheckState.pathLength s.effectiveDrawSegments)
    drawPathCount := s.finalDrawPaths.length
    penLiftCount := s.penLifts
    penDownCount := s.penDowns
    maxFeedSeen := roundTo 3 s.maxFeedSeen }

end DrawingMachine
