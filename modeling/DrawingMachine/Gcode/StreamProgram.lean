import DrawingMachine.Gcode.SendPlan

/-!
# The stream program

The validation of the exact bytes of a candidate before they are streamed. The bytes are
scanned line by line, and the result is compared with the send plan of the decoded text
and with the summary frozen with the job.

The scan, the send plan and the static check split and strip the same bytes in three ways;
`scanSource_spec` says that they agree.
-/

namespace DrawingMachine

/-- The largest size of a candidate, in bytes. -/
def maxGcodeBytes : Nat := 16 * 1024 * 1024

/-- The largest number of lines of a candidate. -/
def maxGcodeLines : Nat := 1000000

/-- The largest size of a line, in bytes. -/
def maxGcodeLineBytes : Nat := 4096

/-- The largest number of commands of a stream program. -/
def maxStreamCommands : Nat := 500000

/-- The largest number of bytes a stream program sends. -/
def maxSerialBytes : Nat := 32 * 1024 * 1024

/-- A command of a stream program. -/
structure StreamCommand where
  sourceLine : Nat
  command : Text
  serialBytes : Nat
  deriving DecidableEq, Repr

/-- What the scan of a candidate has found. -/
structure ScannedProgram where
  rawLineCount : Nat
  commands : List StreamCommand
  serialBytes : Nat
  deriving DecidableEq, Repr

/-- A validated stream program. -/
structure ValidatedStreamProgram where
  gcodeSha256 : String
  sourceSizeBytes : Nat
  rawLineCount : Nat
  serialBytes : Nat
  commands : List StreamCommand
  sendPlan : SendPlan
  deriving DecidableEq, Repr

/-- How the validation fails: with an error of the program, or with the error of the
decoder. -/
inductive StreamProgramError where
  | payload (e : ErrorPayload)
  | unicodeDecodeError
  deriving DecidableEq, Repr

/-- The error of an invalid stream program, naming the field it is about. -/
def invalidStream (message field : String) : StreamProgramError :=
  .payload {
    code := "STREAM_PROGRAM_INVALID"
    category := .validation
    message := message
    retryable := false
    details := [("field", field)] }

/-! ### The scan of the bytes -/

/-- The lines of a sequence of bytes, each with a flag that says whether a line feed ends
it. -/
def byteLines : List UInt8 → List (List UInt8 × Bool)
  | [] => []
  | b :: rest =>
      if b = 10 then ([], true) :: byteLines rest
      else
        match byteLines rest with
        | [] => [([b], false)]
        | (line, ended) :: lines => (b :: line, ended) :: lines

section Scan

variable (ucd : UnicodeData)

/-- A character that may not occur in a candidate: a control character or another one
without a graphic, or a separator of lines or paragraphs. -/
def isForbiddenCharacter (c : Char) : Bool :=
  (ucd.category c).toList.head? = some 'C' || ucd.category c = "Zl" || ucd.category c = "Zp"

/-- The text has a character that may not occur. -/
def hasForbiddenSourceCharacter (t : Text) : Bool := t.any (isForbiddenCharacter ucd)

/-- The content of a line: a carriage return in front of the line feed does not belong to
it. -/
def lineContent (line : List UInt8) (ended : Bool) : List UInt8 :=
  if ended && line.getLast? = some 13 then line.dropLast else line

/-- The text of a line, when it may occur in a candidate. -/
def decodeLine (content : List UInt8) : Except StreamProgramError Text :=
  match Text.decode? content with
  | none => .error (invalidStream "G-code input is not strict UTF-8" "gcode_bytes")
  | some rawLine =>
      if rawLine.head? = some '\uFEFF' ∨ hasForbiddenSourceCharacter ucd rawLine = true then
        .error (invalidStream "G-code input contains a forbidden control or separator" "gcode_bytes")
      else
        .ok rawLine

/-- The command of a line is added to the program. -/
def ScannedProgram.add (scanned : ScannedProgram) (command : Text) :
    Except StreamProgramError ScannedProgram := do
  rejectIf (∃ c ∈ command, 128 ≤ c.toNat)
    (invalidStream "sendable G-code commands must be ASCII" "gcode_bytes")
  rejectIf (maxStreamCommands ≤ scanned.commands.length)
    (invalidStream "G-code input violates the command-count bound" "gcode_bytes")
  let commandSerialBytes := command.length + 1
  rejectIf (maxSerialBytes < scanned.serialBytes + commandSerialBytes)
    (invalidStream "G-code input violates the serial-byte bound" "gcode_bytes")
  return { scanned with
    commands := scanned.commands ++ [⟨scanned.rawLineCount, command, commandSerialBytes⟩]
    serialBytes := scanned.serialBytes + commandSerialBytes }

/-- Scan one line. -/
def ScannedProgram.scanLine (scanned : ScannedProgram) (found : List UInt8 × Bool) :
    Except StreamProgramError ScannedProgram := do
  let (line, ended) := found
  let content := lineContent line ended
  rejectIf (13 ∈ content ∨ (ended = false ∧ line.getLast? = some 13))
    (invalidStream "G-code input contains a lone carriage return" "gcode_bytes")
  let scanned := { scanned with rawLineCount := scanned.rawLineCount + 1 }
  rejectIf (maxGcodeLines < scanned.rawLineCount)
    (invalidStream "G-code input violates the line-count bound" "gcode_bytes")
  rejectIf (maxGcodeLineBytes < content.length)
    (invalidStream "G-code input violates the per-line byte bound" "gcode_bytes")
  let rawLine ← decodeLine ucd content
  let command := commandOf rawLine
  if command = [] then return scanned
  scanned.add command

/-- Scan the bytes of a candidate. -/
def scanSource (source : List UInt8) : Except StreamProgramError ScannedProgram := do
  let scanned ← (byteLines source).foldlM (ScannedProgram.scanLine ucd) ⟨0, [], 0⟩
  rejectIf (scanned.commands = [])
    (invalidStream "G-code input contains no sendable commands" "gcode_bytes")
  return scanned

end Scan

/-! ### The frozen summary -/

/-- The check of a counter of the frozen summary. -/
def checkCounter (value : Int) : Except StreamProgramError Unit :=
  rejectIf (value < 0) (invalidStream "frozen send plan counters are invalid" "send_plan")

/-- The check of a sample line of the frozen summary. -/
def checkSample (sample : Int × Text) : Except StreamProgramError Unit := do
  rejectIf (sample.1 < 1) (invalidStream "frozen send plan source line is invalid" "send_plan")
  rejectIf (sample.2 = [] ∨ (∃ c ∈ sample.2, 128 ≤ c.toNat) ∨ maxGcodeLineBytes < sample.2.length)
    (invalidStream "frozen send plan command is invalid" "send_plan")

/-- The check of the sample lines of the frozen summary. -/
def validateSamples (samples : List (Int × Text)) : Except StreamProgramError Unit := do
  rejectIf (8 < samples.length) (invalidStream "frozen send plan samples are invalid" "send_plan")
  samples.forM checkSample

/-- The check of the frozen summary. -/
def validateSummary (summary : SendPlanSummary) : Except StreamProgramError Unit := do
  checkCounter summary.rawLineCount
  checkCounter summary.blankLineCount
  checkCounter summary.commentOnlyLineCount
  checkCounter summary.sendableLineCount
  checkCounter summary.estimatedSerialBytes
  checkCounter summary.maxSendLineLength
  rejectIf (summary.streamingMode ≠ "conservative_send_line_wait_ok")
    (invalidStream "frozen send plan streaming mode is invalid" "send_plan")
  validateSamples summary.firstSendableLines
  validateSamples summary.lastSendableLines

/-! ### The validation -/

/-- The error of a scan that disagrees with the send plan. -/
def reconstructionDisagrees : StreamProgramError :=
  invalidStream "G-code command reconstruction disagrees with the send plan" "gcode_bytes"

/-- The validation of the bytes of a candidate against the frozen summary and the frozen
digest of a job. -/
def buildValidatedStreamProgram (ucd : UnicodeData) (sha256 : List UInt8 → String)
    (source : List UInt8) (frozenSendPlanSummary : SendPlanSummary) (frozenGcodeSha256 : String) :
    Except StreamProgramError ValidatedStreamProgram := do
  rejectIf (source = [] ∨ maxGcodeBytes < source.length)
    (invalidStream "G-code input violates the byte bound" "gcode_bytes")
  rejectIf (¬ Sha256Hex frozenGcodeSha256)
    (invalidStream "frozen G-code digest must be a canonical SHA-256" "gcode_sha256")
  rejectIf (sha256 source ≠ frozenGcodeSha256)
    (invalidStream "G-code bytes do not match the frozen artifact digest" "gcode_sha256")
  let scanned ← scanSource ucd source
  match Text.decode? source with
  | none => .error .unicodeDecodeError
  | some text =>
      let sendPlan := buildSendPlan sha256 text
      rejectIf (scanned.rawLineCount ≠ sendPlan.rawLineCount ∨
          scanned.commands.length ≠ sendPlan.sendableLineCount ∨
          scanned.serialBytes ≠ sendPlan.estimatedSerialBytes)
        reconstructionDisagrees
      validateSummary frozenSendPlanSummary
      rejectIf (sendPlan.toJson ≠ frozenSendPlanSummary)
        (invalidStream
          "recomputed send plan does not exactly match the frozen Package B summary" "send_plan")
      return {
        gcodeSha256 := sha256 source
        sourceSizeBytes := source.length
        rawLineCount := scanned.rawLineCount
        serialBytes := scanned.serialBytes
        commands := scanned.commands
        sendPlan := sendPlan }

/-! ### The scan splits lines as the text does -/

/-- The bytes of lines. -/
def joinLines (lines : List (List UInt8 × Bool)) : List UInt8 :=
  lines.flatMap fun line => line.1 ++ if line.2 then [10] else []

/-- All lines have an end, except that the last one may lack it when it is not empty. -/
def Ended : List (List UInt8 × Bool) → Prop
  | [] => True
  | [(line, ended)] => ended = true ∨ line ≠ []
  | (_, ended) :: lines => ended = true ∧ Ended lines

/-- The lines of a sequence of bytes make up the sequence. -/
theorem joinLines_byteLines (source : List UInt8) : joinLines (byteLines source) = source := by
  induction source with
  | nil => rfl
  | cons b rest ih =>
      unfold byteLines
      split
      · next hb =>
          rw [hb]
          simpa [joinLines] using ih
      · cases hrest : byteLines rest with
        | nil =>
            rw [hrest] at ih
            have : rest = [] := by simpa [joinLines] using ih.symm
            simp [joinLines, this]
        | cons line lines =>
            rw [hrest] at ih
            simpa [joinLines] using ih

theorem byteLines_ended (source : List UInt8) : Ended (byteLines source) := by
  induction source with
  | nil => trivial
  | cons b rest ih =>
      unfold byteLines
      split
      · cases hrest : byteLines rest with
        | nil => exact .inl rfl
        | cons line lines =>
            rw [hrest] at ih
            exact ⟨rfl, ih⟩
      · cases hrest : byteLines rest with
        | nil => exact .inr (by simp)
        | cons line lines =>
            rw [hrest] at ih
            cases lines with
            | nil => exact .inr (by simp)
            | cons line' lines => exact ih

/-- A character at which a line breaks may not occur in a candidate. -/
theorem isForbiddenCharacter_of_isLineBreak {ucd : UnicodeData} {c : Char}
    (h : Text.isLineBreak c = true) :
  isForbiddenCharacter ucd c = true
  := by
  simp only [Text.isLineBreak, Bool.or_eq_true, Bool.and_eq_true, decide_eq_true_eq,
    beq_iff_eq] at h
  unfold isForbiddenCharacter
  by_cases hcontrol : c.toNat < 0x20 ∨ (0x7F ≤ c.toNat ∧ c.toNat ≤ 0x9F)
  · rw [ucd.category_control c hcontrol]
    decide
  · by_cases hline : c.toNat = 0x2028
    · rw [ucd.category_lineSeparator c hline]
      decide
    · rw [ucd.category_paragraphSeparator c (by omega)]
      decide

/-- A line that is accepted is the encoding of a text without a line break. -/
theorem decodeLine_eq_ok {ucd : UnicodeData} {content : List UInt8} {rawLine : Text}
    (h : decodeLine ucd content = .ok rawLine) :
  Text.encode rawLine = content ∧ Text.Unbroken rawLine
  := by
  unfold decodeLine at h
  split at h
  · cases h
  · next rawLine' hdecode =>
      split at h
      · cases h
      · next hallowed =>
          cases h
          refine ⟨Text.decode?_eq_some_iff.mp hdecode, ?_⟩
          intro c hc
          by_contra hbreak
          apply hallowed
          right
          apply List.any_eq_true.mpr
          exact ⟨c, hc, isForbiddenCharacter_of_isLineBreak (by simpa using hbreak)⟩

/-- The command of a program that a parsed line becomes. -/
def streamCommand (line : Nat × Text) : StreamCommand := ⟨line.1, line.2, line.2.length + 1⟩

/-- What scanning lines adds to a program: the parsed lines, as commands. -/
structure ScannedProgram.Extends (before after : ScannedProgram) (rawLines : List Text) : Prop where
  rawLineCount : after.rawLineCount = before.rawLineCount + rawLines.length
  commands : after.commands = before.commands ++
    ((rawLines.zipIdx (before.rawLineCount + 1)).filterMap CheckState.parsedLine).map streamCommand
  serialBytes : after.serialBytes = before.serialBytes +
    (((rawLines.zipIdx (before.rawLineCount + 1)).filterMap CheckState.parsedLine).map
      fun line => line.2.length + 1).sum

/-- Scanning lines one after the other. -/
theorem ScannedProgram.Extends.trans {before between after : ScannedProgram} {rawLine : Text}
    {rawLines : List Text} (h : before.Extends between [rawLine])
    (h' : between.Extends after rawLines) :
  before.Extends after (rawLine :: rawLines)
  := by
  have hcount : between.rawLineCount = before.rawLineCount + 1 := h.rawLineCount
  constructor
  · rw [h'.rawLineCount, hcount, List.length_cons]
    omega
  · rw [h'.commands, h.commands, hcount, List.zipIdx_cons]
    cases hparse : CheckState.parsedLine (rawLine, before.rawLineCount + 1) <;> simp [hparse]
  · rw [h'.serialBytes, h.serialBytes, hcount, List.zipIdx_cons]
    cases hparse : CheckState.parsedLine (rawLine, before.rawLineCount + 1) <;>
      simp [hparse, Nat.add_assoc]

/-- What scanning one line adds. -/
theorem ScannedProgram.scanLine_spec {ucd : UnicodeData} {before after : ScannedProgram}
    {line : List UInt8} {ended : Bool} (h : before.scanLine ucd (line, ended) = .ok after) :
  ∃ rawLine, Text.encode rawLine = lineContent line ended ∧ Text.Unbroken rawLine ∧
    before.Extends after [rawLine]
  := by
  simp only [scanLine, Except.unit_bind_eq_ok_iff] at h
  obtain ⟨-, -, -, h⟩ := h
  obtain ⟨rawLine, hdecode, hcommand⟩ := Except.bind_eq_ok_iff.mp h
  obtain ⟨hencode, hunbroken⟩ := decodeLine_eq_ok hdecode
  refine ⟨rawLine, hencode, hunbroken, ?_⟩
  split at hcommand
  · next hnone =>
      cases hcommand
      constructor <;> simp [CheckState.parsedLine, hnone]
  · next hsome =>
      simp only [add, Except.unit_bind_eq_ok_iff, Except.pure_eq_ok_iff] at hcommand
      obtain ⟨-, -, -, rfl⟩ := hcommand
      constructor <;> simp [CheckState.parsedLine, hsome, streamCommand]

/-- A line is its content, with a carriage return or without. -/
theorem lineContent_cases (line : List UInt8) (ended : Bool) :
  lineContent line ended = line ∨ (ended = true ∧ line = lineContent line ended ++ [13])
  := by
  unfold lineContent
  split
  · next h =>
      simp only [Bool.and_eq_true, decide_eq_true_eq] at h
      right
      refine ⟨h.1, ?_⟩
      exact (List.dropLast_append_getLast? 13 h.2).symm
  · exact .inl rfl

/-- The text of a line of the scan. -/
def scannedLine? (line : List UInt8 × Bool) : Option Text :=
  Text.decode? (lineContent line.1 line.2)

/-- What scanning lines adds, and the text the lines make up. -/
theorem ScannedProgram.foldlM_scanLine_spec {ucd : UnicodeData}
    {lines : List (List UInt8 × Bool)} {before after : ScannedProgram} (hended : Ended lines)
    (h : lines.foldlM (ScannedProgram.scanLine ucd) before = .ok after) :
  ∃ text, Text.encode text = joinLines lines ∧
    lines.map scannedLine? = (Text.splitlines text).map some ∧
    before.Extends after (Text.splitlines text)
  := by
  induction lines generalizing before with
  | nil =>
      cases h
      exact ⟨[], rfl, rfl, by constructor <;> simp [Text.splitlines]⟩
  | cons found lines ih =>
      obtain ⟨line, ended⟩ := found
      simp only [List.foldlM_cons, Except.bind_eq_ok_iff] at h
      obtain ⟨between, hline, hlines⟩ := h
      obtain ⟨rawLine, hencode, hunbroken, hextends⟩ := scanLine_spec hline
      have hscanned : scannedLine? (line, ended) = some rawLine :=
        Text.decode?_eq_some_iff.mpr hencode
      cases ended with
      | true =>
          have hrest : Ended lines := by
            cases lines with
            | nil => trivial
            | cons line' lines => exact hended.2
          obtain ⟨text, htext, hsplit, hextends'⟩ := ih hrest hlines
          have hlf : Text.encode ['\n'] = [10] := by decide
          have hcr : Text.encode ['\r'] = [13] := by decide
          rcases lineContent_cases line true with hcontent | ⟨-, hcontent⟩
          · refine ⟨rawLine ++ '\n' :: text, ?_, ?_, ?_⟩
            · rw [show rawLine ++ '\n' :: text = rawLine ++ ['\n'] ++ text by simp,
                Text.encode_append, Text.encode_append, hencode, hcontent, htext, hlf]
              simp [joinLines]
            · rw [Text.splitlines_append_newline hunbroken, List.map_cons, List.map_cons, hsplit,
                hscanned]
            · rw [Text.splitlines_append_newline hunbroken]
              exact hextends.trans hextends'
          · refine ⟨rawLine ++ '\r' :: '\n' :: text, ?_, ?_, ?_⟩
            · rw [show rawLine ++ '\r' :: '\n' :: text = rawLine ++ ['\r'] ++ ['\n'] ++ text by simp,
                Text.encode_append, Text.encode_append, Text.encode_append, hencode, htext, hlf,
                hcr, ← hcontent]
              simp [joinLines]
            · rw [Text.splitlines_append_crlf hunbroken, List.map_cons, List.map_cons, hsplit,
                hscanned]
            · rw [Text.splitlines_append_crlf hunbroken]
              exact hextends.trans hextends'
      | false =>
          -- only the last line may lack an end, and it is not empty
          cases lines with
          | cons line' lines => cases hended.1
          | nil =>
              rcases hended with hended | hne
              · cases hended
              have hcontent : lineContent line false = line := by simp [lineContent]
              have hraw : rawLine ≠ [] := by
                rintro rfl
                rw [hcontent] at hencode
                exact hne hencode.symm
              cases hlines
              refine ⟨rawLine, ?_, ?_, ?_⟩
              · rw [hencode, hcontent]
                simp [joinLines]
              · rw [Text.splitlines_of_unbroken hunbroken hraw, List.map_singleton,
                  List.map_singleton, hscanned]
              · rw [Text.splitlines_of_unbroken hunbroken hraw]
                exact hextends

/-- The scan of accepted bytes finds the lines the static check parses. -/
theorem scanSource_spec {ucd : UnicodeData} {source : List UInt8} {scanned : ScannedProgram}
    (h : scanSource ucd source = .ok scanned) :
  ∃ text, Text.decode? source = some text ∧
    (byteLines source).map scannedLine? = (Text.splitlines text).map some ∧
    scanned.rawLineCount = (Text.splitlines text).length ∧
    scanned.commands = (CheckState.parsedLines text).map streamCommand ∧
    scanned.serialBytes = ((CheckState.parsedLines text).map fun line => line.2.length + 1).sum
  := by
  obtain ⟨scanned', hscan, hrest⟩ := Except.bind_eq_ok_iff.mp h
  simp only [Except.unit_bind_eq_ok_iff, Except.pure_eq_ok_iff] at hrest
  obtain ⟨-, rfl⟩ := hrest
  obtain ⟨text, hencode, hsplit, hextends⟩ :=
    ScannedProgram.foldlM_scanLine_spec (byteLines_ended source) hscan
  rw [joinLines_byteLines] at hencode
  refine ⟨text, Text.decode?_eq_some_iff.mpr hencode, hsplit, ?_, ?_, ?_⟩
  · simpa using hextends.rawLineCount
  · simpa [CheckState.parsedLines, Text.numberedLines] using hextends.commands
  · simpa [CheckState.parsedLines, Text.numberedLines] using hextends.serialBytes

/-- The scan always agrees with the send plan of the text it has scanned. -/
theorem scanSource_agrees {ucd : UnicodeData} (sha256 : List UInt8 → String)
    {source : List UInt8} {scanned : ScannedProgram} {text : Text}
    (h : scanSource ucd source = .ok scanned) (htext : Text.decode? source = some text) :
  scanned.rawLineCount = (buildSendPlan sha256 text).rawLineCount ∧
    scanned.commands.length = (buildSendPlan sha256 text).sendableLineCount ∧
    scanned.serialBytes = (buildSendPlan sha256 text).estimatedSerialBytes
  := by
  obtain ⟨text', htext', -, hcount, hcommands, hserial⟩ := scanSource_spec h
  rw [htext] at htext'
  cases htext'
  refine ⟨hcount, ?_, ?_⟩
  · simp [buildSendPlan, hcommands, sendable_countLines]
  · rw [hserial]
    simp [buildSendPlan, sendable_countLines, serialBytes, Function.comp_def]

/-! ### The branches that are never taken -/

/-- An error that the validation has a branch for, but that never occurs. -/
def NeverRaised (e : StreamProgramError) : Prop :=
  e = reconstructionDisagrees ∨ e = .unicodeDecodeError

section Avoids

variable {e : StreamProgramError}

/-- The errors of the other branches have other messages. -/
theorem invalidStream_ne (he : NeverRaised e) {message field : String}
    (hne : message ≠ "G-code command reconstruction disagrees with the send plan") :
  invalidStream message field ≠ e
  := by
  rcases he with rfl | rfl
  · simp [reconstructionDisagrees, invalidStream, hne]
  · simp [invalidStream]

/-- A rejection with another message. -/
theorem avoids_reject (he : NeverRaised e) {bad : Prop} [Decidable bad] {message field : String}
    (hne : message ≠ "G-code command reconstruction disagrees with the send plan") :
  Except.Avoids e (rejectIf bad (invalidStream message field))
  := Except.avoids_rejectIf fun _ => invalidStream_ne he hne

theorem ScannedProgram.add_avoids (he : NeverRaised e) (scanned : ScannedProgram)
    (command : Text) :
  Except.Avoids e (scanned.add command)
  := by
  refine Except.avoids_bind (avoids_reject he (by decide)) fun _ _ => ?_
  refine Except.avoids_bind (avoids_reject he (by decide)) fun _ _ => ?_
  refine Except.avoids_bind (avoids_reject he (by decide)) fun _ _ => ?_
  exact Except.avoids_pure _

theorem decodeLine_avoids (he : NeverRaised e) (ucd : UnicodeData) (content : List UInt8) :
  Except.Avoids e (decodeLine ucd content)
  := by
  unfold decodeLine
  split
  · exact fun h => invalidStream_ne he (by decide) (Except.error.inj h)
  · split
    · exact fun h => invalidStream_ne he (by decide) (Except.error.inj h)
    · exact Except.avoids_pure _

theorem ScannedProgram.scanLine_avoids (he : NeverRaised e) (ucd : UnicodeData)
    (scanned : ScannedProgram) (found : List UInt8 × Bool) :
  Except.Avoids e (scanned.scanLine ucd found)
  := by
  refine Except.avoids_bind (avoids_reject he (by decide)) fun _ _ => ?_
  refine Except.avoids_bind (avoids_reject he (by decide)) fun _ _ => ?_
  refine Except.avoids_bind (avoids_reject he (by decide)) fun _ _ => ?_
  refine Except.avoids_bind (decodeLine_avoids he ucd _) fun rawLine _ => ?_
  dsimp only
  split
  · exact Except.avoids_pure _
  · exact add_avoids he _ _

theorem scanSource_avoids (he : NeverRaised e) (ucd : UnicodeData) (source : List UInt8) :
  Except.Avoids e (scanSource ucd source)
  := by
  refine Except.avoids_bind
    (Except.avoids_foldlM (ScannedProgram.scanLine_avoids he ucd) _ _) fun scanned _ => ?_
  refine Except.avoids_bind (avoids_reject he (by decide)) fun _ _ => ?_
  exact Except.avoids_pure _

theorem validateSamples_avoids (he : NeverRaised e) (samples : List (Int × Text)) :
  Except.Avoids e (validateSamples samples)
  := by
  refine Except.avoids_bind (avoids_reject he (by decide)) fun _ _ => ?_
  refine Except.avoids_forM (fun sample => ?_) samples
  exact Except.avoids_bind (avoids_reject he (by decide)) fun _ _ =>
    avoids_reject he (by decide)

theorem validateSummary_avoids (he : NeverRaised e) (summary : SendPlanSummary) :
  Except.Avoids e (validateSummary summary)
  := by
  have hcounter : ∀ value, Except.Avoids e (checkCounter value) :=
    fun value => avoids_reject he (by decide)
  refine Except.avoids_bind (hcounter _) fun _ _ => ?_
  refine Except.avoids_bind (hcounter _) fun _ _ => ?_
  refine Except.avoids_bind (hcounter _) fun _ _ => ?_
  refine Except.avoids_bind (hcounter _) fun _ _ => ?_
  refine Except.avoids_bind (hcounter _) fun _ _ => ?_
  refine Except.avoids_bind (hcounter _) fun _ _ => ?_
  refine Except.avoids_bind (avoids_reject he (by decide)) fun _ _ => ?_
  refine Except.avoids_bind (validateSamples_avoids he _) fun _ _ => ?_
  exact validateSamples_avoids he _

/-- The validation ends neither because the scan disagrees with the send plan, nor because
the scanned bytes cannot be decoded as a whole. -/
theorem buildValidatedStreamProgram_avoids (he : NeverRaised e) (ucd : UnicodeData)
    (sha256 : List UInt8 → String) (source : List UInt8) (summary : SendPlanSummary)
    (digest : String) :
  Except.Avoids e (buildValidatedStreamProgram ucd sha256 source summary digest)
  := by
  refine Except.avoids_bind (avoids_reject he (by decide)) fun _ _ => ?_
  refine Except.avoids_bind (avoids_reject he (by decide)) fun _ _ => ?_
  refine Except.avoids_bind (avoids_reject he (by decide)) fun _ _ => ?_
  refine Except.avoids_bind (scanSource_avoids he ucd source) fun scanned hscan => ?_
  obtain ⟨text, htext, -⟩ := scanSource_spec hscan
  obtain ⟨hcount, hsendable, hserial⟩ := scanSource_agrees sha256 hscan htext
  simp only [htext]
  refine Except.avoids_bind (Except.avoids_rejectIf ?_) fun _ _ => ?_
  · rintro (h | h | h)
    · exact absurd hcount h
    · exact absurd hsendable h
    · exact absurd hserial h
  refine Except.avoids_bind (validateSummary_avoids he summary) fun _ _ => ?_
  refine Except.avoids_bind (avoids_reject he (by decide)) fun _ _ => ?_
  exact Except.avoids_pure _

end Avoids

/-! ### The commands of a program -/

/-- A command has only characters of its line. -/
theorem mem_of_mem_commandOf {rawLine : Text} {c : Char} (h : c ∈ commandOf rawLine) :
  c ∈ rawLine
  := by
  have hstripped : c ∈ stripComments rawLine :=
    (List.dropWhile_suffix _).subset ((List.rdropWhile_prefix _ _).subset h)
  apply mem_of_mem_removeParentheses ((List.takeWhile_prefix _).subset hstripped)

/-- A line that is accepted has no forbidden character. -/
theorem decodeLine_allowed {ucd : UnicodeData} {content : List UInt8} {rawLine : Text}
    (h : decodeLine ucd content = .ok rawLine) :
  ∀ c ∈ rawLine, isForbiddenCharacter ucd c = false
  := by
  unfold decodeLine at h
  split at h
  · cases h
  · split at h
    · cases h
    · next hallowed =>
        cases h
        intro c hc
        by_contra hforbidden
        apply hallowed
        right
        apply List.any_eq_true.mpr
        use c, hc
        simpa using hforbidden

/-- A command that can be sent: it comes from a line, it is not empty, and it has no control
characters. -/
structure StreamCommand.Sendable (c : StreamCommand) : Prop where
  sourceLine : 1 ≤ c.sourceLine
  command : c.command ≠ []
  plain : ∀ char ∈ c.command, 32 ≤ char.toNat ∧ char.toNat ≠ 127

/-- The text of a command that can be sent is plain. -/
theorem StreamCommand.Sendable.plainText {c : StreamCommand} (h : c.Sendable) :
  PlainText (String.ofList c.command)
  := by
  constructor
  · intro hempty
    have hnil := congrArg String.toList hempty
    rw [String.toList_ofList] at hnil
    exact h.command hnil
  · intro char hchar hcontrol
    rw [String.toList_ofList] at hchar
    have hplain := h.plain char hchar
    omega

/-- Scanning a line keeps that all commands can be sent. -/
theorem ScannedProgram.scanLine_sendable {ucd : UnicodeData} {before after : ScannedProgram}
    {found : List UInt8 × Bool} (h : before.scanLine ucd found = .ok after)
    (hbefore : ∀ c ∈ before.commands, c.Sendable) :
  ∀ c ∈ after.commands, c.Sendable
  := by
  obtain ⟨line, ended⟩ := found
  simp only [scanLine, Except.unit_bind_eq_ok_iff] at h
  obtain ⟨-, -, -, h⟩ := h
  obtain ⟨rawLine, hdecode, hcommand⟩ := Except.bind_eq_ok_iff.mp h
  split at hcommand
  · cases hcommand
    exact hbefore
  · next hne =>
      simp only [add, Except.unit_bind_eq_ok_iff] at hcommand
      obtain ⟨-, -, -, hafter⟩ := hcommand
      cases hafter
      intro c hc
      rcases List.mem_append.mp hc with hc | hc
      · exact hbefore c hc
      · obtain rfl := List.mem_singleton.mp hc
        constructor
        · exact Nat.le_add_left 1 _
        · exact hne
        · intro char hchar
          have hallowed := decodeLine_allowed hdecode char (mem_of_mem_commandOf hchar)
          by_contra hcontrol
          rw [isForbiddenCharacter, ucd.category_control char (by omega)] at hallowed
          exact absurd hallowed (by decide)

/-- Scanning lines keeps that all commands can be sent. -/
theorem ScannedProgram.foldlM_scanLine_sendable {ucd : UnicodeData}
    {lines : List (List UInt8 × Bool)} {before after : ScannedProgram}
    (h : lines.foldlM (scanLine ucd) before = .ok after)
    (hbefore : ∀ c ∈ before.commands, c.Sendable) :
  ∀ c ∈ after.commands, c.Sendable
  := by
  induction lines generalizing before with
  | nil =>
      cases h
      exact hbefore
  | cons found lines ih =>
      rw [List.foldlM_cons] at h
      obtain ⟨between, hline, hlines⟩ := Except.bind_eq_ok_iff.mp h
      apply ih hlines (scanLine_sendable hline hbefore)

/-- A built program has commands, and all of them can be sent. -/
theorem buildValidatedStreamProgram_sendable {ucd : UnicodeData} {sha256 : List UInt8 → String}
    {source : List UInt8} {summary : SendPlanSummary} {digest : String}
    {program : ValidatedStreamProgram}
    (h : buildValidatedStreamProgram ucd sha256 source summary digest = .ok program) :
  program.commands ≠ [] ∧ ∀ c ∈ program.commands, c.Sendable
  := by
  simp only [buildValidatedStreamProgram, Except.unit_bind_eq_ok_iff] at h
  obtain ⟨-, -, -, h⟩ := h
  obtain ⟨scanned, hscan, h⟩ := Except.bind_eq_ok_iff.mp h
  split at h
  · cases h
  · simp only [Except.unit_bind_eq_ok_iff] at h
    obtain ⟨-, -, -, hprogram⟩ := h
    cases hprogram
    obtain ⟨scanned', hfold, hlast⟩ := Except.bind_eq_ok_iff.mp hscan
    simp only [Except.unit_bind_eq_ok_iff, rejectIf_eq_ok_iff, Except.pure_eq_ok_iff] at hlast
    obtain ⟨hne, rfl⟩ := hlast
    use hne
    apply ScannedProgram.foldlM_scanLine_sendable hfold
    intro c hc
    cases hc

/-! ### What is streamed is what was checked -/

/-- What the program of accepted bytes is: its commands are the lines the static check
parses and the send plan counts, in order and with their numbers, and the lines of the
scan are the lines of the text. -/
structure ValidatedStreamProgram.Faithful (sha256 : List UInt8 → String) (source : List UInt8)
    (program : ValidatedStreamProgram) (text : Text) : Prop where
  decoded : Text.decode? source = some text
  parsed : (program.commands.map fun c => (c.sourceLine, c.command)) = CheckState.parsedLines text
  counted : (program.commands.map fun c => (⟨c.sourceLine, c.command⟩ : SendLine))
    = (countLines text).sendable
  split : (byteLines source).map scannedLine? = (Text.splitlines text).map some
  rawLineCount : program.rawLineCount = (Text.splitlines text).length
  sendPlan : program.sendPlan = buildSendPlan sha256 text

/-- Accepted bytes make a program whose commands are exactly the lines that were checked,
and the validation never finds that its two readings of the bytes disagree. -/
theorem buildValidatedStreamProgram_faithful (ucd : UnicodeData)
    (sha256 : List UInt8 → String) (source : List UInt8) (summary : SendPlanSummary)
    (digest : String) :
  buildValidatedStreamProgram ucd sha256 source summary digest
      ≠ .error reconstructionDisagrees ∧
    buildValidatedStreamProgram ucd sha256 source summary digest ≠ .error .unicodeDecodeError ∧
    ∀ program, buildValidatedStreamProgram ucd sha256 source summary digest = .ok program →
      ∃ text, program.Faithful sha256 source text
  := by
  refine ⟨buildValidatedStreamProgram_avoids (.inl rfl) ucd sha256 source summary digest,
    buildValidatedStreamProgram_avoids (.inr rfl) ucd sha256 source summary digest, ?_⟩
  intro program h
  unfold buildValidatedStreamProgram at h
  simp only [Except.unit_bind_eq_ok_iff] at h
  obtain ⟨-, -, -, h⟩ := h
  obtain ⟨scanned, hscan, h⟩ := Except.bind_eq_ok_iff.mp h
  obtain ⟨text, htext, hsplit, hcount, hcommands, -⟩ := scanSource_spec hscan
  simp only [htext, Except.unit_bind_eq_ok_iff, Except.pure_eq_ok_iff] at h
  obtain ⟨-, -, -, rfl⟩ := h
  refine ⟨text, htext, ?_, ?_, hsplit, hcount, rfl⟩
  · simp [hcommands, streamCommand, Function.comp_def]
  · simp [hcommands, streamCommand, sendable_countLines, Function.comp_def]

/-- A candidate of one line. -/
def unitsSource : List UInt8 := [71, 50, 49, 10]

/-- The digest of the candidate of one line. -/
def unitsDigest : String := "d12f99d8a74a4511c5a61699745312e29ee8ac53a06c5a9698ec8cdbd15a758b"

/-- The frozen summary of the candidate of one line. -/
def unitsSummary : SendPlanSummary where
  rawLineCount := 1
  blankLineCount := 0
  commentOnlyLineCount := 0
  sendableLineCount := 1
  estimatedSerialBytes := 4
  maxSendLineLength := 3
  firstSendableLines := [(1, "G21".toList)]
  lastSendableLines := [(1, "G21".toList)]
  streamingMode := "conservative_send_line_wait_ok"

/-- The program of the candidate of one line. -/
def unitsProgram (sha256 : List UInt8 → String) : ValidatedStreamProgram where
  gcodeSha256 := unitsDigest
  sourceSizeBytes := 4
  rawLineCount := 1
  serialBytes := 4
  commands := [⟨1, "G21".toList, 4⟩]
  sendPlan := buildSendPlan sha256 "G21\n".toList

/-- The candidate of one line makes a program of one command. -/
theorem unitsSource_built (sha256 : List UInt8 → String) (h : sha256 unitsSource = unitsDigest) :
  buildValidatedStreamProgram .ascii sha256 unitsSource unitsSummary unitsDigest
    = .ok (unitsProgram sha256)
  := by
  have hline : Text.decode? [71, 50, 49] = some "G21".toList :=
    Text.decode?_eq_some_iff.mpr (by decide)
  have htext : Text.decode? unitsSource = some "G21\n".toList :=
    Text.decode?_eq_some_iff.mpr (by decide)
  have hscan : scanSource .ascii unitsSource = .ok ⟨1, [⟨1, "G21".toList, 4⟩], 4⟩ := by
    have hlines : byteLines unitsSource = [([71, 50, 49], true)] := by decide
    have hdecode : decodeLine .ascii [71, 50, 49] = .ok "G21".toList := by
      unfold decodeLine
      rw [hline]
      decide
    have hcontent : lineContent [71, 50, 49] true = [71, 50, 49] := by decide
    have hstep : ScannedProgram.scanLine .ascii ⟨0, [], 0⟩ ([71, 50, 49], true)
        = .ok ⟨1, [⟨1, "G21".toList, 4⟩], 4⟩ := by
      unfold ScannedProgram.scanLine
      simp only [hcontent, hdecode]
      decide
    unfold scanSource
    rw [hlines]
    simp only [List.foldlM_cons, hstep]
    rfl
  unfold buildValidatedStreamProgram
  simp only [hscan, htext, h]
  rfl

/-- The candidate of one line is accepted. -/
theorem unitsSource_program (sha256 : List UInt8 → String) (h : sha256 unitsSource = unitsDigest) :
  ∃ program, buildValidatedStreamProgram .ascii sha256 unitsSource unitsSummary unitsDigest
      = .ok program ∧ program.commands = [⟨1, "G21".toList, 4⟩]
  := ⟨unitsProgram sha256, unitsSource_built sha256 h, rfl⟩

/-- The candidate of one line is accepted, and its one command is the line. -/
theorem unitsSource_faithful :
  ∃ program,
    buildValidatedStreamProgram .ascii (fun _ => unitsDigest) unitsSource unitsSummary unitsDigest
      = .ok program ∧
    ∃ text, program.Faithful (fun _ => unitsDigest) unitsSource text
  := by
  obtain ⟨program, hprogram, -⟩ := unitsSource_program (fun _ => unitsDigest) rfl
  exact ⟨program, hprogram, (buildValidatedStreamProgram_faithful .ascii (fun _ => unitsDigest)
    unitsSource unitsSummary unitsDigest).2.2 program hprogram⟩

end DrawingMachine
