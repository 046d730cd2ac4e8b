import DrawingMachine.Gcode.StaticCheck

/-!
# The send plan

What a text amounts to when it is sent line by line: its sendable lines, and the counts
that go into the frozen summary of a job.
-/

namespace DrawingMachine

/-- A line that is sent to the controller. -/
structure SendLine where
  sourceLine : Nat
  command : Text
  deriving DecidableEq, Repr

/-- The part of a send plan that is frozen with a job. -/
structure SendPlanSummary where
  rawLineCount : Int
  blankLineCount : Int
  commentOnlyLineCount : Int
  sendableLineCount : Int
  estimatedSerialBytes : Int
  maxSendLineLength : Int
  firstSendableLines : List (Int × Text)
  lastSendableLines : List (Int × Text)
  streamingMode : String
  deriving DecidableEq, Repr

/-- The send plan of a text. -/
structure SendPlan where
  rawLineCount : Nat
  blankLineCount : Nat
  commentOnlyLineCount : Nat
  sendableLineCount : Nat
  estimatedSerialBytes : Nat
  maxSendLineLength : Nat
  firstSendableLines : List SendLine
  lastSendableLines : List SendLine
  streamingMode : String
  actualSha256 : String
  candidateSource : Text
  deriving DecidableEq, Repr

/-- The summary of a send plan. -/
def SendPlan.toJson (plan : SendPlan) : SendPlanSummary where
  rawLineCount := plan.rawLineCount
  blankLineCount := plan.blankLineCount
  commentOnlyLineCount := plan.commentOnlyLineCount
  sendableLineCount := plan.sendableLineCount
  estimatedSerialBytes := plan.estimatedSerialBytes
  maxSendLineLength := plan.maxSendLineLength
  firstSendableLines := plan.firstSendableLines.map fun line => (line.sourceLine, line.command)
  lastSendableLines := plan.lastSendableLines.map fun line => (line.sourceLine, line.command)
  streamingMode := plan.streamingMode

/-! ### The source of a candidate -/

/-- The path mode a comment in front of a text names: the pattern
`;\s*Path mode:\s*([^\s(]+)`. -/
def pathModeAt (t : Text) : Option Text :=
  match t with
  | ';' :: rest =>
      let rest := rest.dropWhile Text.isSpace
      if "Path mode:".toList.isPrefixOf rest then
        let mode := ((rest.drop "Path mode:".toList.length).dropWhile Text.isSpace).takeWhile
          fun c => !Text.isSpace c && c ≠ '('
        if mode = [] then none else some mode
      else none
  | _ => none

/-- The first path mode named at the start of a line. The flag says whether a line starts
here. -/
def findPathMode : Bool → Text → Option Text
  | _, [] => none
  | lineStart, c :: rest =>
      let found := if lineStart then pathModeAt (c :: rest) else none
      found.orElse fun _ => findPathMode (c == '\n') rest

/-! ### The plan -/

/-- What has been counted so far. -/
structure SendPlanCounts where
  sendable : List SendLine
  commentLines : Nat
  blankLines : Nat
  maxSendLineLength : Nat
  deriving DecidableEq, Repr

/-- Count a line. -/
def SendPlanCounts.count (counts : SendPlanCounts) (numbered : Text × Nat) : SendPlanCounts :=
  let (rawLine, lineNo) := numbered
  if Text.strip rawLine = [] then { counts with blankLines := counts.blankLines + 1 }
  else
    let command := commandOf rawLine
    if command = [] then { counts with commentLines := counts.commentLines + 1 }
    else
      { counts with
        maxSendLineLength := max counts.maxSendLineLength command.length
        sendable := counts.sendable ++ [⟨lineNo, command⟩] }

/-- Count all lines of a text. -/
def countLines (gcode : Text) : SendPlanCounts :=
  (Text.numberedLines gcode).foldl SendPlanCounts.count ⟨[], 0, 0, 0⟩

/-- The last `n` items of a list. -/
def lastItems {α : Type} (n : Nat) (l : List α) : List α := l.drop (l.length - n)

/-- The number of bytes lines take when each is sent with a line feed. -/
def serialBytes (lines : List SendLine) : Nat := (lines.map fun line => line.command.length + 1).sum

/-- The send plan of a text. -/
def buildSendPlan (sha256 : List UInt8 → String) (gcode : Text) : SendPlan :=
  let counts := countLines gcode
  { rawLineCount := (Text.splitlines gcode).length
    blankLineCount := counts.blankLines
    commentOnlyLineCount := counts.commentLines
    sendableLineCount := counts.sendable.length
    estimatedSerialBytes := serialBytes counts.sendable
    maxSendLineLength := counts.maxSendLineLength
    firstSendableLines := counts.sendable.take 8
    lastSendableLines := lastItems 8 counts.sendable
    streamingMode := "conservative_send_line_wait_ok"
    actualSha256 := sha256 (Text.encode gcode)
    candidateSource := (findPathMode true gcode).getD "unknown".toList }

/-! ### The plan counts the lines the static check parses -/

/-- Removing comments adds no character. -/
theorem mem_of_mem_removeParentheses {inside : Bool} {t : Text} {c : Char}
    (h : c ∈ removeParentheses inside t) :
  c ∈ t
  := by
  induction t generalizing inside with
  | nil => cases inside <;> simp [removeParentheses] at h
  | cons d rest ih =>
      cases inside with
      | false =>
          simp only [removeParentheses] at h
          split at h
          · exact List.mem_cons_of_mem _ (ih h)
          · rcases List.mem_cons.mp h with h | h
            · exact List.mem_cons.mpr (.inl h)
            · exact List.mem_cons_of_mem _ (ih h)
      | true =>
          simp only [removeParentheses] at h
          split at h <;> exact List.mem_cons_of_mem _ (ih h)

/-- A blank line has no command. -/
theorem commandOf_of_blank {rawLine : Text} (h : Text.strip rawLine = []) :
  commandOf rawLine = []
  := by
  apply Text.strip_eq_nil_iff.mpr
  intro c hc
  apply Text.strip_eq_nil_iff.mp h
  exact mem_of_mem_removeParentheses ((List.takeWhile_prefix _).subset hc)

/-- Counting a line adds to the sendable lines the line that is parsed, if it is. -/
theorem sendable_count (counts : SendPlanCounts) (numbered : Text × Nat) :
  (counts.count numbered).sendable
    = counts.sendable ++ ((CheckState.parsedLine numbered).map fun line =>
        (⟨line.1, line.2⟩ : SendLine)).toList
  := by
  obtain ⟨rawLine, lineNo⟩ := numbered
  simp only [SendPlanCounts.count, CheckState.parsedLine]
  split
  · next hblank => simp [commandOf_of_blank hblank]
  · split
    · simp
    · simp

/-- The lines a send plan counts as sendable are those the static check parses. -/
theorem sendable_countLines (gcode : Text) :
  (countLines gcode).sendable
    = (CheckState.parsedLines gcode).map fun line => (⟨line.1, line.2⟩ : SendLine)
  := by
  suffices h : ∀ (lines : List (Text × Nat)) (counts : SendPlanCounts),
      (lines.foldl SendPlanCounts.count counts).sendable
        = counts.sendable ++ (lines.filterMap CheckState.parsedLine).map fun line =>
            (⟨line.1, line.2⟩ : SendLine) by
    simpa [countLines, CheckState.parsedLines] using h (Text.numberedLines gcode) ⟨[], 0, 0, 0⟩
  intro lines
  induction lines with
  | nil => simp
  | cons line lines ih =>
      intro counts
      rw [List.foldl_cons, ih, sendable_count, List.append_assoc]
      cases hparse : CheckState.parsedLine line with
      | none => simp [hparse]
      | some found => simp [hparse]

end DrawingMachine
