import Mathlib.Data.Rat.Init
import Mathlib.Algebra.Order.Ring.Rat
import DrawingMachine.Errors
import DrawingMachine.Base.Text

/-!
# The values of the G-code pipeline

The machine profile with its validation, the options and findings of the static check, and
the gate a list of findings amounts to. Lengths, positions and feeds are rational numbers,
so the source's checks for finite numbers never fail here.
-/

namespace DrawingMachine

/-! ### Findings -/

/-- How severe a finding is. -/
inductive CheckSeverity where
  | info | warning | blocker
  deriving DecidableEq, Repr

/-- The verdict on a candidate. -/
inductive StaticGate where
  | passStatic | reviewWarnings | blocked
  deriving DecidableEq, Repr

/-- A piece of the message of a finding: a fixed text, or a value the source interpolates
into it. -/
inductive MessagePart where
  | text (s : String)
  | count (n : Nat)
  | integer (n : Int)
  /-- A number as `str` prints it. -/
  | number (q : ℚ)
  /-- A number with three decimals. -/
  | fixed (q : ℚ)
  /-- The square root of a number, with three decimals. -/
  | root (q : ℚ)
  /-- A text in quotes. -/
  | quoted (s : String)
  /-- A list of texts as `str` prints it. -/
  | texts (l : List String)
  deriving DecidableEq, Repr

/-- A finding of a check. -/
structure SafetyCheck where
  severity : CheckSeverity
  code : String
  message : List MessagePart
  deriving DecidableEq, Repr

/-- A finding that blocks a candidate. -/
def SafetyCheck.IsBlocker (check : SafetyCheck) : Prop := check.severity = .blocker

instance (check : SafetyCheck) : Decidable check.IsBlocker :=
  inferInstanceAs (Decidable (_ = _))

/-- The verdict a list of findings amounts to. -/
def gateFromChecks (checks : List SafetyCheck) : StaticGate :=
  if ∃ check ∈ checks, check.severity = .blocker then .blocked
  else if ∃ check ∈ checks, check.severity = .warning then .reviewWarnings
  else .passStatic

/-- A candidate is blocked exactly when one of the findings is a blocker. -/
theorem gateFromChecks_eq_blocked_iff {checks : List SafetyCheck} :
  gateFromChecks checks = .blocked ↔ ∃ check ∈ checks, check.IsBlocker
  := by
  unfold gateFromChecks SafetyCheck.IsBlocker
  split
  · next h => simp [h]
  · next h => split <;> simp_all

/-- No finding of the list is a blocker. -/
def NoBlocker (checks : List SafetyCheck) : Prop := ∀ check ∈ checks, ¬ check.IsBlocker

instance (checks : List SafetyCheck) : Decidable (NoBlocker checks) :=
  inferInstanceAs (Decidable (∀ _ ∈ _, _))

@[simp] theorem noBlocker_nil : NoBlocker [] := by
  simp [NoBlocker]

@[simp] theorem noBlocker_cons {check : SafetyCheck} {checks : List SafetyCheck} :
  NoBlocker (check :: checks) ↔ check.severity ≠ .blocker ∧ NoBlocker checks
  := by
  simp [NoBlocker, SafetyCheck.IsBlocker]

@[simp] theorem noBlocker_append {checks checks' : List SafetyCheck} :
  NoBlocker (checks ++ checks') ↔ NoBlocker checks ∧ NoBlocker checks'
  := by
  simp only [NoBlocker, List.mem_append]
  constructor
  · intro h
    exact ⟨fun c hc => h c (.inl hc), fun c hc => h c (.inr hc)⟩
  · rintro ⟨h, h'⟩ c (hc | hc)
    · exact h c hc
    · exact h' c hc

/-- A candidate passes the gate exactly when none of the findings is a blocker. -/
theorem gateFromChecks_ne_blocked_iff {checks : List SafetyCheck} :
  gateFromChecks checks ≠ .blocked ↔ NoBlocker checks
  := by
  rw [ne_eq, gateFromChecks_eq_blocked_iff]
  simp [NoBlocker]

/-! ### The machine profile -/

/-- The settings of the machine a candidate is built for. -/
structure MachineBuildProfile.Fields where
  hardwareCanvasWidthMm : ℚ
  hardwareCanvasHeightMm : ℚ
  machineWidthMm : ℚ
  machineHeightMm : ℚ
  paperCenterX : ℚ
  paperCenterY : ℚ
  penUpZ : ℚ
  penDownZ : ℚ
  feedTravel : ℚ
  feedDraw : ℚ
  feedPenDown : ℚ
  feedPenUp : ℚ
  maxFeed : ℚ
  workCoordinate : String
  alignMode : String
  mirrorY : Bool
  safeStart : Bool
  pathMode : String
  deriving DecidableEq, Repr

/-- The error of an invalid profile, naming the field it is about. -/
def invalidProfile (message field : String) : ErrorPayload where
  code := "MACHINE_BUILD_PROFILE_INVALID"
  category := .configuration
  message := message
  retryable := false
  details := [("field", field)]

/-- The check of a positive number of the profile. -/
def checkPositive (value : ℚ) (field : String) : Except ErrorPayload Unit :=
  rejectIf (value ≤ 0) (invalidProfile (field ++ " must be greater than zero") field)

/-- The check of a setting that has one admissible text. -/
def checkFixedString (value field expected : String) : Except ErrorPayload Unit :=
  rejectIf (value ≠ expected) (invalidProfile (field ++ " must be '" ++ expected ++ "'") field)

/-- The check of a setting that has to be on. -/
def checkFixedTrue (value : Bool) (field : String) : Except ErrorPayload Unit :=
  rejectIf (value ≠ true) (invalidProfile (field ++ " must be true") field)

/-- The check of a feed against the largest feed. -/
def checkFeed (feed maxFeed : ℚ) (field : String) : Except ErrorPayload Unit :=
  rejectIf (feed > maxFeed) (invalidProfile (field ++ " must not exceed max_feed") field)

@[simp] theorem checkPositive_eq_ok_iff {value : ℚ} {field : String} :
  checkPositive value field = .ok () ↔ 0 < value
  := by
  simp [checkPositive]

@[simp] theorem checkFixedString_eq_ok_iff {value field expected : String} :
  checkFixedString value field expected = .ok () ↔ value = expected
  := by
  simp [checkFixedString]

@[simp] theorem checkFixedTrue_eq_ok_iff {value : Bool} {field : String} :
  checkFixedTrue value field = .ok () ↔ value = true
  := by
  simp [checkFixedTrue]

@[simp] theorem checkFeed_eq_ok_iff {feed maxFeed : ℚ} {field : String} :
  checkFeed feed maxFeed field = .ok () ↔ feed ≤ maxFeed
  := by
  simp [checkFeed]

/-- The checks of a machine profile. -/
def validateMachineBuildProfile (p : MachineBuildProfile.Fields) : Except ErrorPayload Unit := do
  checkPositive p.hardwareCanvasWidthMm "profile.gcode.hardware_canvas_width_mm"
  checkPositive p.hardwareCanvasHeightMm "profile.gcode.hardware_canvas_height_mm"
  checkPositive p.machineWidthMm "profile.gcode.machine_width_mm"
  checkPositive p.machineHeightMm "profile.gcode.machine_height_mm"
  checkPositive p.feedTravel "profile.gcode.feed_travel"
  checkPositive p.feedDraw "profile.gcode.feed_draw"
  checkPositive p.feedPenDown "profile.gcode.feed_pen_down"
  checkPositive p.feedPenUp "profile.gcode.feed_pen_up"
  checkPositive p.maxFeed "profile.gcode.max_feed"
  checkFixedString p.workCoordinate "profile.gcode.work_coordinate" "G54"
  checkFixedString p.alignMode "profile.gcode.align_mode" "center"
  checkFixedTrue p.mirrorY "profile.gcode.mirror_y"
  checkFixedTrue p.safeStart "profile.gcode.safe_start"
  checkFixedString p.pathMode "profile.gcode.path_mode" "stroke"
  checkFeed p.feedTravel p.maxFeed "profile.gcode.feed_travel"
  checkFeed p.feedDraw p.maxFeed "profile.gcode.feed_draw"
  checkFeed p.feedPenDown p.maxFeed "profile.gcode.feed_pen_down"
  checkFeed p.feedPenUp p.maxFeed "profile.gcode.feed_pen_up"
  rejectIf (p.penUpZ ≤ p.penDownZ)
    (invalidProfile "profile.gcode.pen_up_z must be greater than pen_down_z"
      "profile.gcode.pen_up_z")
  rejectIf (p.hardwareCanvasWidthMm > p.machineWidthMm)
    (invalidProfile "profile.gcode.hardware_canvas_width_mm must not exceed machine_width_mm"
      "profile.gcode.hardware_canvas_width_mm")
  rejectIf (p.hardwareCanvasHeightMm > p.machineHeightMm)
    (invalidProfile "profile.gcode.hardware_canvas_height_mm must not exceed machine_height_mm"
      "profile.gcode.hardware_canvas_height_mm")
  rejectIf (¬ (0 ≤ p.paperCenterX ∧ p.paperCenterX ≤ p.machineWidthMm))
    (invalidProfile "profile.gcode.paper_center_x must be within machine X bounds"
      "profile.gcode.paper_center_x")
  rejectIf (¬ (0 ≤ p.paperCenterY ∧ p.paperCenterY ≤ p.machineHeightMm))
    (invalidProfile "profile.gcode.paper_center_y must be within machine Y bounds"
      "profile.gcode.paper_center_y")

/-- A validated machine profile. -/
abbrev MachineBuildProfile :=
  { p : MachineBuildProfile.Fields // validateMachineBuildProfile p = .ok () }

/-- What the validation of a profile has established. -/
structure MachineBuildProfile.Fields.Valid (p : MachineBuildProfile.Fields) : Prop where
  machineWidth : 0 < p.machineWidthMm
  machineHeight : 0 < p.machineHeightMm
  feedTravel : 0 < p.feedTravel ∧ p.feedTravel ≤ p.maxFeed
  feedDraw : 0 < p.feedDraw ∧ p.feedDraw ≤ p.maxFeed
  feedPenDown : 0 < p.feedPenDown ∧ p.feedPenDown ≤ p.maxFeed
  feedPenUp : 0 < p.feedPenUp ∧ p.feedPenUp ≤ p.maxFeed
  workCoordinate : p.workCoordinate = "G54"
  pathMode : p.pathMode = "stroke"
  pen : p.penDownZ < p.penUpZ
  paperX : 0 ≤ p.paperCenterX ∧ p.paperCenterX ≤ p.machineWidthMm
  paperY : 0 ≤ p.paperCenterY ∧ p.paperCenterY ≤ p.machineHeightMm

/-- The validation of a profile establishes its facts. -/
theorem MachineBuildProfile.valid (p : MachineBuildProfile) : p.val.Valid := by
  have h := p.property
  simp only [validateMachineBuildProfile, Except.unit_bind_eq_ok_iff, checkPositive_eq_ok_iff,
    checkFixedString_eq_ok_iff, checkFixedTrue_eq_ok_iff, checkFeed_eq_ok_iff,
    rejectIf_eq_ok_iff, not_le, not_not] at h
  obtain ⟨-, -, hw, hh, ht, hd, hpd, hpu, -, hwc, -, -, -, hpm, ht', hd', hpd', hpu', hz, -, -,
    hx, hy⟩ := h
  exact ⟨hw, hh, ⟨ht, ht'⟩, ⟨hd, hd'⟩, ⟨hpd, hpd'⟩, ⟨hpu, hpu'⟩, hwc, hpm, hz, hx, hy⟩

/-- The profile of the first stage of the machine. -/
def MachineBuildProfile.Fields.stage1Defaults : MachineBuildProfile.Fields where
  hardwareCanvasWidthMm := 144
  hardwareCanvasHeightMm := 144
  machineWidthMm := 192
  machineHeightMm := 192
  paperCenterX := 96
  paperCenterY := 96
  penUpZ := 7 / 2
  penDownZ := 0
  feedTravel := 1200
  feedDraw := 900
  feedPenDown := 100
  feedPenUp := 400
  maxFeed := 1200
  workCoordinate := "G54"
  alignMode := "center"
  mirrorY := true
  safeStart := true
  pathMode := "stroke"

/-- The default profile passes its own validation. -/
def MachineBuildProfile.stage1Defaults : MachineBuildProfile :=
  ⟨.stage1Defaults, by decide +kernel⟩

/-! ### The options of the static check -/

/-- What the bounds of the canvas are compared with. -/
inductive CanvasBoundsMode where
  | origin | span
  deriving DecidableEq, Repr

/-- The options of the static check. -/
structure StaticCheckOptions where
  inputName : String
  canvasWidthMm : ℚ
  canvasHeightMm : ℚ
  machineWidthMm : ℚ
  machineHeightMm : ℚ
  canvasBoundsMode : CanvasBoundsMode
  penUpZ : ℚ
  penDownZ : ℚ
  startX : ℚ
  startY : ℚ
  startZ : Option ℚ
  zTolerance : ℚ
  maxFeed : ℚ
  maxPenDownTravelMm : ℚ
  warnPenLifts : Nat
  warnShortPathMm : ℚ
  deriving DecidableEq, Repr

/-- The options a candidate for a profile is checked with. -/
def candidateOptions (profile : MachineBuildProfile) (inputName : String) :
    StaticCheckOptions where
  inputName := inputName
  canvasWidthMm := profile.val.hardwareCanvasWidthMm
  canvasHeightMm := profile.val.hardwareCanvasHeightMm
  machineWidthMm := profile.val.machineWidthMm
  machineHeightMm := profile.val.machineHeightMm
  canvasBoundsMode := .span
  penUpZ := profile.val.penUpZ
  penDownZ := profile.val.penDownZ
  startX := profile.val.paperCenterX
  startY := profile.val.paperCenterY
  startZ := some profile.val.penUpZ
  zTolerance := 1 / 100
  maxFeed := profile.val.maxFeed
  maxPenDownTravelMm := 1 / 20
  warnPenLifts := 500
  warnShortPathMm := 1 / 2

end DrawingMachine
