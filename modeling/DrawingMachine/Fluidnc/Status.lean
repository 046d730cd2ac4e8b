import Mathlib.Data.Rat.Floor
import DrawingMachine.Gcode.Words
import DrawingMachine.Machine.Models

/-!
# Status reports of the controller

The values a FluidNC controller reports, and the parser of its lines. The parts of the
platform on which the reading of a line depends are a parameter: the character database,
the case folding of texts, and the arithmetic of floating-point numbers.

A floating-point number is a rational number, or none when it is not finite: none of the
operations below tells the numbers that are not finite from each other.
-/

namespace DrawingMachine

/-- A floating-point number: a rational number, or `none` when it is not finite. -/
abbrev Reading := Option ℚ

/-- The floating-point arithmetic of the platform. A result that is too large for it is not
finite. -/
structure FloatArithmetic where
  /-- The finite number that `float` reads from a text. -/
  parse : Text → Option ℚ
  add : ℚ → ℚ → Reading
  sub : ℚ → ℚ → Reading
  /-- The number rounded to three decimals. -/
  round3 : ℚ → ℚ

/-- A character that no line may have: a control character or a separator of lines. -/
def forbiddenLineCharacter (ucd : UnicodeData) (c : Char) : Bool :=
  "C".toList.isPrefixOf (ucd.category c).toList || ucd.category c = "Zl" || ucd.category c = "Zp"

/-- What the reading of a controller's line depends on. -/
structure Platform where
  ucd : UnicodeData
  casefold : Text → Text
  repr : String → String
  float : FloatArithmetic
  /-- The printable ASCII characters are neither control characters nor separators. -/
  printable : ∀ c : Char, 0x20 ≤ c.toNat → c.toNat < 0x7F → forbiddenLineCharacter ucd c = false

/-! ### Positions -/

/-- A reported position of the three axes. -/
structure Axes where
  x : Reading
  y : Reading
  z : Reading
  deriving DecidableEq, Repr

/-- A position as a report of it. -/
def Vector3.axes (v : Vector3) : Axes := ⟨some v.x, some v.y, some v.z⟩

namespace FloatArithmetic

variable (float : FloatArithmetic)

/-- The difference of two numbers, rounded to three decimals. -/
def roundedDifference (a b : Reading) : Reading := do
  return float.round3 (← float.sub (← a) (← b))

/-- The sum of two numbers, rounded to three decimals. -/
def roundedSum (a b : Reading) : Reading := do
  return float.round3 (← float.add (← a) (← b))

/-- The axes combined one by one. -/
def combine (f : Reading → Reading → Reading) (a b : Axes) : Axes :=
  ⟨f a.x b.x, f a.y b.y, f a.z b.z⟩

/-- Whether two numbers differ by at most the tolerance. -/
def near (tolerance : ℚ) (a b : Reading) : Bool :=
  match a, b with
  | some a, some b =>
      match float.sub a b with
      | some d => |d| ≤ tolerance
      | none => false
  | _, _ => false

end FloatArithmetic

/-! ### Exact arithmetic -/

/-- Exact arithmetic on decimal numerals. It agrees with that of the floating-point numbers
on the small whole numbers of the samples. -/
def FloatArithmetic.exact : FloatArithmetic where
  parse t :=
    match numberAt UnicodeData.ascii t with
    | some (q, n) => if n = t.length then some q else none
    | none => none
  add a b := some (a + b)
  sub a b := some (a - b)
  round3 := roundTo 3

/-- A letter of the ASCII alphabet in lower case. -/
def lowerAscii (c : Char) : Char :=
  if 'A'.toNat ≤ c.toNat ∧ c.toNat ≤ 'Z'.toNat then Char.ofNat (c.toNat + 32) else c

/-- The printable characters of the ASCII alphabet may be in a line. -/
theorem forbiddenLineCharacter_ascii (c : Char) (hlow : 0x20 ≤ c.toNat) (hhigh : c.toNat < 0x7F) :
  forbiddenLineCharacter UnicodeData.ascii c = false
  := by
  have hcategory : UnicodeData.ascii.category c = "Lo" := by
    simp only [UnicodeData.ascii]
    rw [if_neg (by omega), if_neg (by omega), if_neg (by omega)]
  rw [forbiddenLineCharacter, hcategory]
  decide

/-- The platform of the samples, which knows the ASCII characters and the small numbers. -/
def Platform.plain : Platform where
  ucd := UnicodeData.ascii
  casefold := List.map lowerAscii
  repr s := "'" ++ s ++ "'"
  float := FloatArithmetic.exact
  printable := forbiddenLineCharacter_ascii

/-! ### Status, offsets and snapshots -/

/-- The state a controller reports. -/
inductive FluidNCState where
  | idle | run | hold | door | alarm | home | check | jog | sleep | other
  deriving DecidableEq, Repr

/-- The name of a state. -/
def FluidNCState.value : FluidNCState → String
  | .idle => "Idle"
  | .run => "Run"
  | .hold => "Hold"
  | .door => "Door"
  | .alarm => "Alarm"
  | .home => "Home"
  | .check => "Check"
  | .jog => "Jog"
  | .sleep => "Sleep"
  | .other => "Other"

/-- The states with a name of their own, in the order of the enumeration. -/
def FluidNCState.named : List FluidNCState :=
  [.idle, .run, .hold, .door, .alarm, .home, .check, .jog, .sleep]

/-- A status report. -/
structure ControllerStatus where
  state : FluidNCState
  stateText : String
  mpos : Option Axes
  wpos : Option Axes
  wco : Option Axes
  statusLine : Text
  deriving DecidableEq, Repr

/-- A reported work offset. -/
structure WorkOffset where
  name : String
  position : Axes
  deriving DecidableEq, Repr

/-- What the controller answered to the read-only queries. -/
structure PreflightSnapshot where
  status : ControllerStatus
  parserState : List Text
  offsetLines : List Text
  offsets : List WorkOffset
  errors : List Text
  missingOkCommands : List Text
  deriving DecidableEq, Repr

/-- The offset of the work coordinates in use. -/
def PreflightSnapshot.g54 (s : PreflightSnapshot) : Option Axes :=
  (s.offsets.find? fun item => item.name = "G54").map WorkOffset.position

/-- The work position that the machine position and the offset amount to. -/
def PreflightSnapshot.computedWposFromMposG54 (float : FloatArithmetic) (s : PreflightSnapshot) :
    Option Axes := do
  let mpos ← s.status.mpos
  let g54 ← s.g54
  return FloatArithmetic.combine float.roundedDifference mpos g54

/-! ### Lines -/

/-- The error of a line that is no report. -/
def invalidStatus (message field : String) : ErrorPayload where
  code := "FLUIDNC_STATUS_INVALID"
  category := .hardware
  message := message
  retryable := false
  details := [("field", field)]

/-- The number of bytes of a text. -/
def byteLength (t : Text) : Nat := (Text.encode t).length

/-- A line that the controller may send: not empty, of at most 4096 bytes, and without
forbidden characters. -/
def WellFormedLine (ucd : UnicodeData) (line : Text) : Prop :=
  line ≠ [] ∧ byteLength line ≤ 4096 ∧ ∀ c ∈ line, forbiddenLineCharacter ucd c = false

instance (ucd : UnicodeData) (line : Text) : Decidable (WellFormedLine ucd line) :=
  inferInstanceAs (Decidable (_ ∧ _ ∧ _))

section

variable (p : Platform)

/-- The check of a line. -/
def checkLine (line : Text) (field : String) : Except ErrorPayload Unit :=
  rejectIf (¬ WellFormedLine p.ucd line) (invalidStatus (field ++ " contains an invalid line") field)

/-- The check of a number of lines: at most 256, of at most 64 KiB together. -/
def checkLines (field : String) : Nat → List Text → Except ErrorPayload Unit
  | _, [] => .ok ()
  | total, line :: rest => do
      checkLine p line field
      rejectIf (64 * 1024 < total + byteLength line)
        (invalidStatus (field ++ " exceeds its byte limit") field)
      checkLines field (total + byteLength line) rest

/-- The lines of a response. -/
def acceptedLines (lines : List Text) (field : String) : Except ErrorPayload (List Text) := do
  rejectIf (256 < lines.length) (invalidStatus (field ++ " must be a bounded exact tuple") field)
  checkLines p field 0 lines
  return lines

/-- The parts of a text between the given characters. -/
def splitAt (c : Char) (t : Text) : List Text := t.splitOn c

/-- Three numbers, separated by commas. -/
def parseVector (raw : Text) (field : String) : Except ErrorPayload Vector3 :=
  match (splitAt ',' raw).map fun part => p.float.parse (Text.strip part) with
  | [some x, some y, some z] => .ok ⟨x, y, z⟩
  | _ => .error (invalidStatus (field ++ " must contain exactly three finite values") field)

/-! ### Status lines -/

/-- A digit of the ASCII alphabet. -/
def isAsciiDigit (c : Char) : Bool := '0'.toNat ≤ c.toNat && c.toNat ≤ '9'.toNat

/-- A name of a state that is not one of the known ones: a letter, at most 31 letters,
digits, underscores and hyphens, and perhaps a colon and a number of up to three digits. -/
def isOtherState (value : Text) : Bool :=
  let name := value.takeWhile fun c => isLetter c || isAsciiDigit c || c = '_' || c = '-'
  let rest := value.drop name.length
  (name.head?.any isLetter) && name.length ≤ 32 &&
    (rest = [] || (rest.head? = some ':' && rest.tail.all isAsciiDigit &&
      1 ≤ rest.tail.length && rest.tail.length ≤ 3))

/-- The state that a name stands for. -/
def parseState (value : Text) : Except ErrorPayload FluidNCState :=
  if value ∈ ["Hold:0".toList, "Hold:1".toList] then .ok .hold
  else if value ∈ ["Door:0".toList, "Door:1".toList, "Door:2".toList, "Door:3".toList] then
    .ok .door
  else match FluidNCState.named.find? fun state => state.value.toList = value with
    | some state => .ok state
    | none => do
        rejectIf (FluidNCState.named.any fun state =>
            state.value.toList = value.takeWhile (· ≠ ':'))
          (invalidStatus "controller status state is invalid" "status_line")
        rejectIf (¬ isOtherState value)
          (invalidStatus "controller status state is invalid" "status_line")
        return .other

/-- The positions of a status report. -/
structure Positions where
  mpos : Option Vector3 := none
  wpos : Option Vector3 := none
  wco : Option Vector3 := none
  deriving DecidableEq, Repr

/-- A position that is reported under the given name, added to those reported before. -/
def Positions.add (positions : Positions) (name : Text) (raw : Text) :
    Except ErrorPayload Positions := do
  let duplicate := invalidStatus "controller status contains a duplicate position" "status_line"
  if name = "MPos".toList then
    rejectIf positions.mpos.isSome duplicate
    return { positions with mpos := some (← parseVector p raw "controller status position") }
  else if name = "WPos".toList then
    rejectIf positions.wpos.isSome duplicate
    return { positions with wpos := some (← parseVector p raw "controller status position") }
  else if name = "WCO".toList then
    rejectIf positions.wco.isSome duplicate
    return { positions with wco := some (← parseVector p raw "controller status position") }
  else return positions

/-- A field of a status report, which has a name and a value. -/
def Positions.read (positions : Positions) (part : Text) : Except ErrorPayload Positions := do
  rejectIf (':' ∉ part) (invalidStatus "controller status is invalid" "status_line")
  positions.add p (part.takeWhile (· ≠ ':')) ((part.dropWhile (· ≠ ':')).tail)

/-- A line in angle brackets, without others inside. -/
def isReport (line : Text) : Bool :=
  line.head? = some '<' && line.getLast? = some '>' && line.count '<' = 1 && line.count '>' = 1

/-- Read a status report. -/
def parseControllerStatus (line : Text) : Except ErrorPayload ControllerStatus := do
  checkLine p line "controller status"
  rejectIf (¬ isReport line) (invalidStatus "controller status is invalid" "status_line")
  let parts := splitAt '|' line.tail.dropLast
  rejectIf (parts.head? = some []) (invalidStatus "controller status is invalid" "status_line")
  let stateText := parts.headD []
  let state ← parseState stateText
  let positions ← parts.tail.foldlM (Positions.read p) {}
  return {
    state := state
    stateText := String.ofList stateText
    mpos := positions.mpos.map Vector3.axes
    wpos := positions.wpos.map Vector3.axes
    wco := positions.wco.map Vector3.axes
    statusLine := line }

/-! ### Offset lines -/

/-- The name and the value of a line that reports an offset: a name of up to 16 letters and
digits, a colon and a value, in square brackets. -/
def offsetLine? (line : Text) : Option (Text × Text) :=
  let line := Text.strip line
  let inner := line.tail.dropLast
  let name := inner.takeWhile (· ≠ ':')
  let value := (inner.dropWhile (· ≠ ':')).tail
  if line.head? = some '[' ∧ line.getLast? = some ']' ∧ 2 ≤ line.length ∧
      name.head?.any isLetter ∧ (name.all fun c => isLetter c || isAsciiDigit c) ∧
      name.length ≤ 16 ∧ ':' ∈ inner ∧ value ≠ [] ∧ ']' ∉ value then
    some (name, value)
  else none

/-- An ASCII letter in upper case. -/
def upperAscii (c : Char) : Char :=
  if 'a'.toNat ≤ c.toNat ∧ c.toNat ≤ 'z'.toNat then Char.ofNat (c.toNat - 32) else c

/-- The offset that a line reports, added to those reported before. -/
def readOffset (offsets : List WorkOffset) (line : Text) :
    Except ErrorPayload (List WorkOffset) :=
  match offsetLine? line with
  | none => .ok offsets
  | some (name, value) => do
      let name := String.ofList (name.map upperAscii)
      rejectIf (∃ item ∈ offsets, item.name = name)
        (invalidStatus "offset responses contain a duplicate offset" "offset_lines")
      return offsets ++ [⟨name, (← parseVector p value "work offset").axes⟩]

/-- The offsets of a response. -/
def parseOffsets (lines : List Text) : Except ErrorPayload (List WorkOffset) := do
  let lines ← acceptedLines p lines "offset responses"
  lines.foldlM (readOffset p) []

/-- The snapshot that a number of responses amount to. -/
def parsePreflightSnapshot (statusLine : Text)
    (parserState offsetLines errors missingOkCommands : List Text) :
    Except ErrorPayload PreflightSnapshot := do
  let parserState ← acceptedLines p parserState "parser-state responses"
  let offsetLines ← acceptedLines p offsetLines "offset responses"
  let errors ← acceptedLines p errors "preflight errors"
  let missingOkCommands ← acceptedLines p missingOkCommands "missing-ok commands"
  return {
    status := ← parseControllerStatus p statusLine
    parserState := parserState
    offsetLines := offsetLines
    offsets := ← parseOffsets p offsetLines
    errors := errors
    missingOkCommands := missingOkCommands }

end

end DrawingMachine
