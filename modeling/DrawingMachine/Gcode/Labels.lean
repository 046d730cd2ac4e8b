import DrawingMachine.Gcode.Agreement
import DrawingMachine.Gcode.SendPlan

/-!
# The label of a plan in the text of a candidate

The builder copies the label of a plan into a comment line. A label of several lines ends
the comment with its first line, and what its other lines say is sent. The commands of a
candidate therefore do not depend on the label exactly when every line of the label after
the first is blank or a comment.
-/

namespace Text

/-- A line feed after a text ends its last line, or adds a blank one. -/
theorem splitlines_append_lineFeed (t rest : Text) :
  ∃ blanks : List Text, (∀ line ∈ blanks, line = []) ∧
    splitlines (t ++ '\n' :: rest) = splitlines t ++ blanks ++ splitlines rest
  := by
  have hlf : isLineBreak '\n' = true := by decide
  induction t with
  | nil =>
      use [[]]
      simp [splitlines, hlf]
  | cons c t ih =>
      obtain ⟨blanks, hblanks, heq⟩ := ih
      cases t with
      | nil =>
          by_cases hcr : c = '\r'
          · use []
            subst hcr
            simp [splitlines, hlf, isLineBreak_carriageReturn]
          · by_cases hc : isLineBreak c = true
            · use [[]]
              simp [splitlines, hcr, hc, hlf]
            · use []
              simp [splitlines, hcr, hc, hlf]
      | cons d t =>
          use blanks, hblanks
          rw [List.cons_append, splitlines, heq]
          conv => rhs; rw [splitlines]
          have hhead : ((d :: t) ++ '\n' :: rest).head? = (d :: t).head? := rfl
          rw [hhead]
          split
          · rfl
          · split
            · rfl
            · obtain ⟨line, lines, hlines⟩ :=
                List.exists_cons_of_ne_nil (splitlines_ne_nil (List.cons_ne_nil d t))
              rw [hlines]
              rfl

/-- The lines of a text in front of which an unbroken one stands. -/
theorem splitlines_append_of_unbroken {s : Text} (h : Unbroken s) (hne : s ≠ []) (t : Text) :
  splitlines (s ++ t) = (s ++ (splitlines t).headD []) :: (splitlines t).tail
  := by
  induction s with
  | nil => exact absurd rfl hne
  | cons c s ih =>
      obtain ⟨hc, hs⟩ := unbroken_cons.mp h
      have hcr : c ≠ '\r' := by
        rintro rfl
        simp [isLineBreak_carriageReturn] at hc
      rw [List.cons_append, splitlines]
      cases s with
      | nil => cases hlines : splitlines t <;> simp [hc, hcr, hlines]
      | cons d s =>
          rw [ih hs (by simp)]
          simp [hc, hcr]

end Text

namespace DrawingMachine

/-! ### The commands of a text -/

/-- The command a line is sent as, if it is sent. -/
def lineCommand (rawLine : Text) : Option Text :=
  if commandOf rawLine = [] then none else some (commandOf rawLine)

/-- The commands of a text, in the order they are sent. -/
def sendableCommands (gcode : Text) : List Text :=
  (countLines gcode).sendable.map SendLine.command

/-- The commands of a text are those of its lines. -/
theorem sendableCommands_eq (gcode : Text) :
  sendableCommands gcode = (Text.splitlines gcode).filterMap lineCommand
  := by
  unfold sendableCommands
  rw [sendable_countLines, CheckState.parsedLines, Text.numberedLines, List.map_map]
  generalize 1 = n
  induction Text.splitlines gcode generalizing n with
  | nil => rfl
  | cons line lines ih =>
      rw [List.zipIdx_cons, List.filterMap_cons, List.filterMap_cons]
      by_cases hcommand : commandOf line = []
      · simp only [CheckState.parsedLine, lineCommand, hcommand, if_true]
        apply ih
      · simp only [CheckState.parsedLine, lineCommand, hcommand, if_false, List.map_cons,
          Function.comp_apply]
        congr 1
        apply ih

/-- A blank line is not sent. -/
theorem lineCommand_nil : lineCommand [] = none := by
  decide

/-- The commands of two texts with a line feed in between. -/
theorem sendableCommands_append (t rest : Text) :
  sendableCommands (t ++ '\n' :: rest) = sendableCommands t ++ sendableCommands rest
  := by
  obtain ⟨blanks, hblanks, hlines⟩ := Text.splitlines_append_lineFeed t rest
  have hnone : blanks.filterMap lineCommand = [] := by
    apply List.filterMap_eq_nil_iff.mpr
    intro line hline
    rw [hblanks line hline]
    apply lineCommand_nil
  simp only [sendableCommands_eq, hlines, List.filterMap_append, hnone, List.append_nil]

/-- A comment in front of a text hides its first line. -/
theorem sendableCommands_comment {comment : Text} (h : Text.Unbroken (';' :: comment))
    (t : Text) :
  sendableCommands (';' :: comment ++ t) = (Text.splitlines t).tail.filterMap lineCommand
  := by
  rw [sendableCommands_eq, Text.splitlines_append_of_unbroken h (by simp), List.filterMap_cons]
  have hfirst : lineCommand (';' :: comment ++ (Text.splitlines t).headD []) = none := by
    unfold lineCommand
    rw [List.cons_append, commandOf_comment, if_pos rfl]
  rw [hfirst]

/-! ### The commands of a candidate -/

/-- The commands the label of a plan adds to a candidate. -/
def labelCommands (label : Text) : List Text := (Text.splitlines label).tail.filterMap lineCommand

/-- A label adds no command exactly when its lines after the first have none. -/
theorem labelCommands_eq_nil_iff (label : Text) :
  labelCommands label = [] ↔ ∀ line ∈ (Text.splitlines label).tail, commandOf line = []
  := by
  unfold labelCommands
  rw [List.filterMap_eq_nil_iff]
  constructor
  · intro h line hline
    by_contra hne
    have hnone := h line hline
    rw [lineCommand, if_neg hne] at hnone
    cases hnone
  · intro h line hline
    rw [lineCommand, if_pos (h line hline)]

/-- The lines of a candidate after the one with the label. -/
def linesAfterLabel (py : PythonPrinter) (ordered : List ProductionPath)
    (profile : MachineBuildProfile) : List Text :=
  (renderStart py [] profile).drop 3 ++ ordered.flatMap (renderPath profile) ++ ["; End".toList]

/-- The commands of a candidate are those of its label and those of the lines after it. -/
theorem sendableCommands_renderGcode (py : PythonPrinter) (plan : List (String × Json))
    (ordered : List ProductionPath) (profile : MachineBuildProfile) :
  sendableCommands (renderGcode py plan ordered profile) =
    labelCommands (inputLabel py plan) ++
      sendableCommands ((linesAfterLabel py ordered profile).flatMap (· ++ ['\n']))
  := by
  have htext : renderGcode py plan ordered profile =
      "; Generated from drawable path_plan.json".toList ++ '\n' ::
        ("; Static candidate only. Review before sending to any CNC controller.".toList ++
          '\n' :: (("; Source: ".toList ++ inputLabel py plan) ++ '\n' ::
            (linesAfterLabel py ordered profile).flatMap (· ++ ['\n']))) := by
    simp [renderGcode, renderLines, renderStart, linesAfterLabel, List.flatMap_append]
  have hfirst : sendableCommands "; Generated from drawable path_plan.json".toList = [] := by
    decide +kernel
  have hsecond : sendableCommands
      "; Static candidate only. Review before sending to any CNC controller.".toList = [] := by
    decide +kernel
  have hsource : sendableCommands ("; Source: ".toList ++ inputLabel py plan) =
      labelCommands (inputLabel py plan) := by
    apply sendableCommands_comment
    decide
  rw [htext, sendableCommands_append, sendableCommands_append, sendableCommands_append, hfirst,
    hsecond, hsource]
  rfl

/-! ### The label of a plan -/

/-- The plan with another label. -/
def withLabel (plan : List (String × Json)) (label : String) : List (String × Json) :=
  ("input", .str label) :: plan.filter fun field => field.1 ≠ "input"

/-- The label of a plan with another label. -/
theorem inputLabel_withLabel (py : PythonPrinter) (plan : List (String × Json))
    (label : String) :
  inputLabel py (withLabel plan label) = label.toList
  := by
  simp [inputLabel, withLabel, Json.lookup, py.print_str]

/-- A plan with another label has the same other fields. -/
theorem lookup_withLabel (plan : List (String × Json)) (label : String) {key : String}
    (hkey : key ≠ "input") :
  Json.lookup (withLabel plan label) key = Json.lookup plan key
  := by
  unfold Json.lookup withLabel
  rw [List.find?_cons_of_neg (by simpa using hkey.symm), List.find?_filter]
  congr 2
  funext field
  by_cases hfield : field.1 = key
  · simp [hfield, hkey]
  · simp [hfield]

/-- A plan with another label has the same production paths. -/
theorem selectProductionPaths_withLabel (plan : List (String × Json)) (label : String) :
  selectProductionPaths (withLabel plan label) = selectProductionPaths plan
  := by
  have hgroup : ∀ group ∈ pathGroups,
      readGroup (withLabel plan label) group = readGroup plan group := by
    intro group hgroup
    unfold readGroup
    rw [lookup_withLabel]
    revert group
    decide
  have hgroups : ∀ groups : List PathGroup, (∀ group ∈ groups, group ∈ pathGroups) →
      readGroups (withLabel plan label) groups = readGroups plan groups := by
    intro groups hsub
    induction groups with
    | nil => rfl
    | cons group groups ih =>
        rw [readGroups, readGroups, hgroup group (hsub group (by simp)),
          ih fun g hg => hsub g (List.mem_cons_of_mem _ hg)]
  apply hgroups
  intro group h
  apply h

/-- A plan with another label is accepted just the same. -/
theorem buildGcode_withLabel {py : PythonPrinter} {plan : List (String × Json)}
    {profile : MachineBuildProfile} {result : GcodeBuildResult}
    (h : buildGcode py plan profile = .ok result) (label : String) :
  ∃ ordered, result.gcode = renderGcode py plan ordered profile ∧
    buildGcode py (withLabel plan label) profile =
      .ok ⟨renderGcode py (withLabel plan label) ordered profile, result.checks⟩
  := by
  simp only [buildGcode, Except.bind_eq_ok_iff, Except.pure_eq_ok_iff] at h ⊢
  obtain ⟨_, hmode, selected, hselected, _, hempty, _, hgeometry, checks, hchecks, _, hpass,
    rfl⟩ := h
  use transformPaths (orderedPaths selected) profile, rfl
  refine ⟨(), hmode, selected, ?_, (), hempty, (), hgeometry, checks, ?_, (), hpass, rfl⟩
  · rw [selectProductionPaths_withLabel, hselected]
  · rw [← hchecks]
    unfold buildChecks
    rw [lookup_withLabel plan label (by decide)]

/-- The commands of a candidate are those of the plan without its label exactly when every
line of the label after the first is blank or a comment. -/
theorem buildGcode_label_iff (py : PythonPrinter) (plan : List (String × Json))
    (profile : MachineBuildProfile) (result : GcodeBuildResult)
    (h : buildGcode py plan profile = .ok result) :
  ∃ bare, buildGcode py (withLabel plan "") profile = .ok bare ∧
    (sendableCommands result.gcode = sendableCommands bare.gcode ↔
      ∀ line ∈ (Text.splitlines (inputLabel py plan)).tail, commandOf line = [])
  := by
  obtain ⟨ordered, hgcode, hbare⟩ := buildGcode_withLabel h ""
  refine ⟨_, hbare, ?_⟩
  have hempty : labelCommands (inputLabel py (withLabel plan "")) = [] := by
    rw [inputLabel_withLabel]
    rfl
  rw [← labelCommands_eq_nil_iff, hgcode, sendableCommands_renderGcode,
    sendableCommands_renderGcode, hempty, List.nil_append, List.append_left_eq_self]

/-- The plan with one path does not depend on its label. -/
theorem buildGcode_label_onePathPlan :
  ∃ result bare, buildGcode plainPrinter onePathPlan .stage1Defaults = .ok result ∧
    buildGcode plainPrinter (withLabel onePathPlan "") .stage1Defaults = .ok bare ∧
    sendableCommands result.gcode = sendableCommands bare.gcode
  := by
  obtain ⟨result, hresult⟩ := buildGcode_onePathPlan .stage1Defaults ⟨rfl, rfl, rfl, rfl⟩
  obtain ⟨bare, hbare, hiff⟩ :=
    buildGcode_label_iff plainPrinter onePathPlan .stage1Defaults result hresult
  use result, bare, hresult, hbare
  apply hiff.mpr
  decide +kernel

/-- A label whose second line moves the tool. -/
def movingLabel : String := "drawing.png\nG0 X192.000 Y192.000 F5000.0"

/-- A label with a second line sends a command that the same plan without it does not. -/
theorem movingLabel_injected :
  ∃ result bare,
    buildGcode plainPrinter (withLabel onePathPlan movingLabel) .stage1Defaults = .ok result ∧
    buildGcode plainPrinter (withLabel (withLabel onePathPlan movingLabel) "") .stage1Defaults
      = .ok bare ∧
    sendableCommands result.gcode ≠ sendableCommands bare.gcode
  := by
  obtain ⟨plain, hplain⟩ := buildGcode_onePathPlan .stage1Defaults ⟨rfl, rfl, rfl, rfl⟩
  obtain ⟨ordered, -, hlabelled⟩ := buildGcode_withLabel hplain movingLabel
  obtain ⟨ordered', hgcode, hbare⟩ := buildGcode_withLabel hlabelled ""
  refine ⟨_, _, hlabelled, hbare, ?_⟩
  have hmoving : labelCommands (inputLabel plainPrinter (withLabel onePathPlan movingLabel)) ≠ [] := by
    rw [inputLabel_withLabel]
    decide +kernel
  have hempty : labelCommands (inputLabel plainPrinter
      (withLabel (withLabel onePathPlan movingLabel) "")) = [] := by
    rw [inputLabel_withLabel]
    rfl
  rw [hgcode, sendableCommands_renderGcode, sendableCommands_renderGcode, hempty, List.nil_append]
  intro heq
  apply hmoving
  apply List.append_left_eq_self.mp heq

end DrawingMachine
