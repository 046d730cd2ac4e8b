import DrawingMachine.Gcode.Geometry
import DrawingMachine.Gcode.Words

/-!
# The preview

The segments of a G-code text that the preview shows. The preview reads the lines on its own:
it knows no modal motion, and a line without its own `G0` or `G1` is not looked at.
-/

namespace DrawingMachine

/-- Read one piece of a line. The last word with a letter counts, and what is between the words
does not. -/
def readToken (words : Char → Option ℚ) : Token → Char → Option ℚ
  | .gap _ => words
  | .word letter value => Function.update words letter.toUpper (some value)

/-- The words of a line as the preview reads them. -/
def previewWords (ucd : UnicodeData) (line : Text) : Char → Option ℚ :=
  (tokens ucd line).foldl readToken fun _ => none

/-- What the preview has read so far. -/
structure PreviewState where
  x : ℚ
  y : ℚ
  z : ℚ
  drawSegments : List Segment
  travelSegments : List Segment
  commandCount : ℕ
  deriving DecidableEq, Repr

namespace PreviewState

/-- The state before the first line. -/
def initial (profile : MachineBuildProfile) : PreviewState where
  x := profile.val.paperCenterX
  y := profile.val.paperCenterY
  z := profile.val.penUpZ
  drawSegments := []
  travelSegments := []
  commandCount := 0

/-- Obey the words of a line with the motion `G0` or `G1`. -/
def obey (profile : MachineBuildProfile) (words : Char → Option ℚ) (command : ℤ)
    (s : PreviewState) : PreviewState :=
  let moved : PreviewState :=
    { s with
      x := (words 'X').getD s.x
      y := (words 'Y').getD s.y
      z := (words 'Z').getD s.z
      commandCount := s.commandCount + 1 }
  let segment : Segment := ⟨⟨s.x, s.y⟩, ⟨moved.x, moved.y⟩⟩
  if (words 'X').isNone && (words 'Y').isNone then moved
  else if s.z ≤ profile.val.penDownZ ∧ moved.z ≤ profile.val.penDownZ ∧ command = 1 then
    { moved with drawSegments := moved.drawSegments ++ [segment] }
  else
    { moved with travelSegments := moved.travelSegments ++ [segment] }

/-- Read one line. The number of the `G` word is cut off to a whole number. -/
def readLine (ucd : UnicodeData) (profile : MachineBuildProfile) (s : PreviewState)
    (rawLine : Text) : PreviewState :=
  let line := commandOf rawLine
  if line = [] then s
  else
    let words := previewWords ucd line
    match words 'G' with
    | none => s
    | some g =>
        let command := Int.tdiv g.num g.den
        if command = 0 ∨ command = 1 then s.obey profile words command else s

/-- Read lines. -/
def readLines (ucd : UnicodeData) (profile : MachineBuildProfile) (lines : List Text) :
    PreviewState :=
  lines.foldl (readLine ucd profile) (initial profile)

end PreviewState

/-- The bounds of the segments that are shown. -/
def previewBounds (segments : List Segment) : Bounds :=
  if segments = [] then ⟨0, 0, 1, 1⟩ else boundsOf (segmentEnds segments)

/-- What the preview shows. -/
structure ParsedGcode where
  drawSegments : List Segment
  travelSegments : List Segment
  bounds : Bounds
  commandCount : ℕ
  deriving DecidableEq, Repr

/-- Read a text for the preview. -/
def parseGcode (ucd : UnicodeData) (gcode : Text) (profile : MachineBuildProfile) : ParsedGcode :=
  let s := PreviewState.readLines ucd profile (Text.splitlines gcode)
  { drawSegments := s.drawSegments
    travelSegments := s.travelSegments
    bounds := previewBounds (s.drawSegments ++ s.travelSegments)
    commandCount := s.commandCount }

end DrawingMachine
