import DrawingMachine.Gcode.SendPlan

/-!
# The check of a candidate

A candidate is checked with the options of its machine profile, and the result of the check
and the send plan decide whether it is ready. The preview that the source renders beside is
left out.
-/

namespace DrawingMachine

/-- Whether a candidate is ready. -/
inductive ReadinessStatus where
  | ready | blocked
  deriving DecidableEq, Repr

/-- The verdict on the readiness of a candidate. -/
structure ReadinessResult where
  status : ReadinessStatus
  checks : List SafetyCheck

open Classical in
/-- The findings about the readiness of a candidate. -/
noncomputable def readinessChecks (result : StaticCheckResult) (plan : SendPlan)
    (expectedGcodeSha256 : String) : List SafetyCheck :=
  (if result.gate = .blocked then
    [⟨.blocker, "STATIC_CHECK_BLOCKED",
      ((result.checks.filter fun check => decide check.IsBlocker).map fun check =>
        [.text check.code, .text ": "] ++ check.message).intersperse [.text "; "] |>.flatten⟩]
    else []) ++
  (if ¬ Sha256Hex expectedGcodeSha256 then
    [⟨.blocker, "GCODE_DIGEST_INVALID", [.text "Expected G-code SHA-256 is not canonical."]⟩]
    else if plan.actualSha256 ≠ expectedGcodeSha256 ∨ result.actualSha256 ≠ expectedGcodeSha256 then
    [⟨.blocker, "GCODE_DIGEST_MISMATCH",
      [.text "G-code digest does not match the expected manifest digest."]⟩]
    else []) ++
  (if result.rawLineCount ≠ plan.rawLineCount then
    [⟨.blocker, "GCODE_LINE_COUNT_MISMATCH",
      [.text "Static and send-plan raw line counts differ: ", .count result.rawLineCount,
        .text " != ", .count plan.rawLineCount, .text "."]⟩]
    else []) ++
  (if plan.sendableLineCount = 0 then
    [⟨.blocker, "GCODE_EMPTY_SEND_PLAN", [.text "no sendable G-code lines"]⟩]
    else []) ++
  (if plan.candidateSource ≠ "stroke".toList then
    [⟨.blocker, "GCODE_NON_STROKE_SOURCE",
      [.text "G-code candidate source is ", .quoted (String.ofList plan.candidateSource),
        .text ", not 'stroke'."]⟩]
    else []) ++
  (if result.drawSegmentCount = 0 then
    [⟨.blocker, "GCODE_NO_DRAW_SEGMENTS",
      [.text "pen-contact drawing candidate has zero draw segments"]⟩]
    else []) ++
  -- a length is not negative, so the number in this message is zero
  (if result.drawLengthMm ≤ 0 then
    [⟨.blocker, "GCODE_DRAW_LENGTH_INVALID",
      [.text "draw length ", .number 0, .text " is not positive finite geometry"]⟩]
    else []) ++
  (if result.penDownCount = 0 then
    [⟨.blocker, "GCODE_NO_PEN_DOWN",
      [.text "pen-contact drawing candidate has zero pen-down events"]⟩]
    else []) ++
  (if result.maxFeedSeen ≤ 0 ∨ result.maxFeedSeen > result.maxFeedLimit then
    [⟨.blocker, "GCODE_FEED_MISMATCH",
      [.text "max feed ", .number result.maxFeedSeen, .text " is outside the positive limit ",
        .number result.maxFeedLimit]⟩]
    else []) ++
  (if (result.penLiftCount : Int) - result.penDownCount ≠ 0 ∧
      (result.penLiftCount : Int) - result.penDownCount ≠ 1 then
    [⟨.warning, "PEN_LIFT_DOWN_DELTA",
      [.text "pen lift/down count differs by ",
        .integer ((result.penLiftCount : Int) - result.penDownCount),
        .text "; review path structure"]⟩]
    else []) ++
  (if result.penLiftCount > 500 then
    [⟨.warning, "MANY_PEN_LIFTS",
      [.text "pen lift count ", .count result.penLiftCount,
        .text " is high; review runtime impact"]⟩]
    else [])

/-- The verdict on the readiness of a candidate. -/
noncomputable def evaluateReadiness (result : StaticCheckResult) (plan : SendPlan)
    (expectedGcodeSha256 : String) : ReadinessResult :=
  let checks := readinessChecks result plan expectedGcodeSha256
  { status := if ∃ check ∈ checks, check.severity = .blocker then .blocked else .ready
    checks := checks }

/-- What the check of a candidate returns. -/
structure CandidateCheckResult where
  staticResult : StaticCheckResult
  sendPlan : SendPlan
  readiness : ReadinessResult

/-- The check of a candidate. -/
noncomputable def checkCandidate (ucd : UnicodeData) (sha256 : List UInt8 → String)
    (gcode : Text) (profile : MachineBuildProfile) (expectedGcodeSha256 inputName : String) :
    CandidateCheckResult :=
  let staticResult := analyzeGcode ucd sha256 gcode (candidateOptions profile inputName)
  let sendPlan := buildSendPlan sha256 gcode
  { staticResult := staticResult
    sendPlan := sendPlan
    readiness := evaluateReadiness staticResult sendPlan expectedGcodeSha256 }

end DrawingMachine
