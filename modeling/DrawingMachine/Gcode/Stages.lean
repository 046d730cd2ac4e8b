import DrawingMachine.Gcode.StaticCheck

/-!
# The stages of the static check

What each stage of a line does to the state of the check. A stage that skips the rest of a
line blocks the text, except for a line without axis words before the first modal motion;
and when a stage does not block the text, it does to the state what the lemmas here say.

Most of the state is counters. `Tracked` is the part of it that says where the tool is,
what has been drawn and how the text has started.
-/

namespace DrawingMachine

namespace CheckState

/-! ### Blockers stay -/

/-- A text that a stage has blocked stays blocked. -/
@[simp] theorem noBlocker_block {s : CheckState} {code : String} {message : List MessagePart} :
  NoBlocker (s.block code message).checks ↔ False
  := by
  simp [block]

/-- The stage of the words passes exactly when there is no issue. -/
theorem checkIssues_eq_ok_iff {lineNo : Nat} {issues : List WordIssue} {s s' : CheckState} :
  checkIssues lineNo issues s = .ok s' ↔ issues = [] ∧ s = s'
  := by
  unfold checkIssues
  dsimp only
  split
  · next h =>
      have hne : issues ≠ [] := by
        rintro rfl
        simp at h
      simp [hne]
  · next h =>
      split
      · next h' =>
          have hne : issues ≠ [] := by
            rintro rfl
            simp at h'
          split <;> simp [hne]
      · next h' =>
          have hnil : issues = [] := by
            apply List.eq_nil_iff_forall_not_mem.mpr
            intro issue hmem
            simp only [ne_eq, not_not, List.filter_eq_nil_iff] at h h'
            have h1 := h issue hmem
            have h2 := h' issue hmem
            simp_all
          simp [hnil]

/-- A line that is skipped because of its words blocks the text. -/
theorem blocked_of_checkIssues_error {lineNo : Nat} {issues : List WordIssue}
    {s e : CheckState} (h : checkIssues lineNo issues s = .error e) :
  ¬ NoBlocker e.checks
  := by
  unfold checkIssues at h
  dsimp only at h
  split at h
  · cases h
    simp
  · split at h
    · split at h <;> cases h <;> simp
    · cases h

/-- What the `G` word of a line can be when the line is not skipped. -/
theorem checkG_cases {lineNo : Nat} {words : Words} {s s' : CheckState}
    (h : checkG lineNo words s = .ok s') :
  (words .G = none ∧ s' = s) ∨
    (words .G = some 21 ∧ s' = { s with sawUnits := !s.sawMotion }) ∨
    (words .G = some 90 ∧ s' = { s with sawAbsolute := !s.sawMotion }) ∨
    (words .G = some 54 ∧ s' = { s with sawWorkCoordinate := !s.sawMotion }) ∨
    (words .G = some 0 ∧ s' = { s with sawMotion := true, activeMotion := some .rapid }) ∨
    (words .G = some 1 ∧ s' = { s with sawMotion := true, activeMotion := some .linear })
  := by
  unfold checkG at h
  split at h
  · next hg =>
      cases h
      exact .inl ⟨hg, rfl⟩
  · next value hg =>
      right
      split at h
      · cases h
      next hden =>
      have hvalue : ∀ {n : ℤ}, value.num = n → words .G = some (n : ℚ) := by
        intro n hn
        rw [hg, ← hn, Rat.coe_int_num_of_den_eq_one (not_not.mp hden)]
      dsimp only at h
      split at h
      · cases h
      split at h
      · next h21 =>
          cases h
          exact .inl ⟨hvalue h21, rfl⟩
      right
      split at h
      · next h90 =>
          cases h
          exact .inl ⟨hvalue h90, rfl⟩
      right
      split at h
      · cases h
      split at h
      · next h54 =>
          cases h
          exact .inl ⟨hvalue h54, rfl⟩
      right
      split at h
      · cases h
      split at h
      · next h0 =>
          cases h
          exact .inl ⟨hvalue h0, rfl⟩
      right
      split at h
      · next h1 =>
          cases h
          exact ⟨by simpa using hvalue h1, rfl⟩
      · cases h

/-- A line that is skipped because of its `G` word blocks the text. -/
theorem blocked_of_checkG_error {lineNo : Nat} {words : Words} {s e : CheckState}
    (h : checkG lineNo words s = .error e) :
  ¬ NoBlocker e.checks
  := by
  unfold checkG at h
  split at h
  · cases h
  · dsimp only at h
    split_ifs at h <;> cases h <;> simp

/-- What the `F` word of a line can be when it does not block the text. -/
theorem checkF_cases {options : StaticCheckOptions} {lineNo : Nat} {words : Words}
    {s s' : CheckState} (h : checkF options lineNo words s = .ok s')
    (hb : NoBlocker s'.checks) :
  (words .F = none ∧ s' = s) ∨
    ∃ feed, words .F = some feed ∧ 0 < feed ∧ feed ≤ options.maxFeed ∧
      s' = { s with maxFeedSeen := max s.maxFeedSeen feed }
  := by
  unfold checkF at h
  split at h
  · next hf =>
      cases h
      exact .inl ⟨hf, rfl⟩
  · next feed hf =>
      split at h
      · cases h
      next hpos =>
      dsimp only at h
      split at h
      · cases h
        simp at hb
      · next hmax =>
          cases h
          exact .inr ⟨feed, hf, not_le.mp hpos, not_lt.mp hmax, rfl⟩

/-- A line that is skipped because of its `F` word blocks the text. -/
theorem blocked_of_checkF_error {options : StaticCheckOptions} {lineNo : Nat} {words : Words}
    {s e : CheckState} (h : checkF options lineNo words s = .error e) :
  ¬ NoBlocker e.checks
  := by
  unfold checkF at h
  split at h
  · cases h
  · dsimp only at h
    split_ifs at h
    cases h
    simp

/-- A line without an axis word. -/
def NoAxis (words : Words) : Prop := words .X = none ∧ words .Y = none ∧ words .Z = none

theorem axisWords_eq_nil_iff {words : Words} : axisWords words = [] ↔ NoAxis words := by
  unfold axisWords NoAxis
  cases words .X <;> cases words .Y <;> cases words .Z <;> simp

/-- A line that is skipped for lack of a modal motion has no axis word, unless it blocks
the text. -/
theorem checkActiveMotion_error {lineNo : Nat} {words : Words} {s e : CheckState}
    (h : checkActiveMotion lineNo words s = .error e) (hb : NoBlocker e.checks) :
  s.activeMotion = none ∧ NoAxis words ∧ e = s
  := by
  unfold checkActiveMotion at h
  split at h
  · cases h
  · next hactive =>
      split at h
      · cases h
        simp at hb
      · next haxis =>
          cases h
          exact ⟨hactive, axisWords_eq_nil_iff.mp (not_not.mp haxis), rfl⟩

/-- The motion of a line that is not skipped is the modal one. -/
theorem checkActiveMotion_eq_ok_iff {lineNo : Nat} {words : Words} {s s' : CheckState}
    {motion : Motion} :
  checkActiveMotion lineNo words s = .ok (motion, s') ↔
    s.activeMotion = some motion ∧ s' = s
  := by
  unfold checkActiveMotion
  split
  · next m hm =>
      simp only [Except.ok.injEq, Prod.mk.injEq, hm, Option.some.injEq]
      exact ⟨fun h => ⟨h.1, h.2.symm⟩, fun h => ⟨h.1, h.2.symm⟩⟩
  · next hm => split <;> simp [hm]

/-! ### The part of the state the interpreter can be compared with -/

/-- The part of the state of the check that says where the tool is, what has been drawn and
how the text has started. -/
structure Tracked where
  position : Point
  z : ℚ
  activeMotion : Option Motion
  drawSegments : List Segment
  hasDrawn : Bool
  travelSegments : List Segment
  sawUnits : Bool
  sawAbsolute : Bool
  sawWorkCoordinate : Bool
  sawInitialPenUp : Bool
  unsafeMotion : Bool
  sawMotion : Bool

/-- The part of a state the interpreter can be compared with. -/
def tracked (s : CheckState) : Tracked where
  position := s.position
  z := s.z
  activeMotion := s.activeMotion
  drawSegments := s.drawSegments
  hasDrawn := s.hasPositiveFiniteDrawGeometry
  travelSegments := s.travelSegments
  sawUnits := s.sawUnits
  sawAbsolute := s.sawAbsolute
  sawWorkCoordinate := s.sawWorkCoordinate
  sawInitialPenUp := s.sawInitialPenUp
  unsafeMotion := s.unsafeMotionBeforeInitialPenUp
  sawMotion := s.sawMotion

@[simp] theorem tracked_noteEndMarker (lineNo : Nat) (rawLine : Text) (s : CheckState) :
  (s.noteEndMarker lineNo rawLine).tracked = s.tracked
  := by
  unfold noteEndMarker
  split <;> rfl

@[simp] theorem tracked_noteSendable (lineNo : Nat) (s : CheckState) :
  (s.noteSendable lineNo).tracked = s.tracked
  := rfl

@[simp] theorem checks_noteEndMarker (lineNo : Nat) (rawLine : Text) (s : CheckState) :
  (s.noteEndMarker lineNo rawLine).checks = s.checks
  := by
  unfold noteEndMarker
  split <;> rfl

@[simp] theorem tracked_closeDrawPath (s : CheckState) : s.closeDrawPath.tracked = s.tracked := by
  unfold closeDrawPath
  split <;> rfl

@[simp] theorem checks_closeDrawPath (s : CheckState) : s.closeDrawPath.checks = s.checks := by
  unfold closeDrawPath
  split <;> rfl

/-! ### The stages of a motion -/

section Motion

variable {options : StaticCheckOptions} {lineNo : Nat} {words : Words}

/-- The line moves the tool in the plane. -/
def MovesXY (words : Words) : Bool := (words .X).isSome || (words .Y).isSome

/-- The line moves the pen up to the height `z`. -/
def LiftsPen (options : StaticCheckOptions) (words : Words) (z : ℚ) : Bool :=
  (words .Z).isSome && decide (Near z options.penUpZ options.zTolerance)

@[simp] theorem tracked_moveTo (s : CheckState) :
  (s.moveTo words).tracked =
    { s.tracked with
      position := ⟨(words .X).getD s.x, (words .Y).getD s.y⟩
      z := (words .Z).getD s.z }
  := rfl

@[simp] theorem checks_noteUnsafeMotion (s : CheckState) :
  (s.noteUnsafeMotion options words).checks = s.checks
  := by
  unfold noteUnsafeMotion
  dsimp only
  split <;> rfl

@[simp] theorem tracked_noteUnsafeMotion (s : CheckState) :
  (s.noteUnsafeMotion options words).tracked =
    { s.tracked with
      unsafeMotion := s.tracked.unsafeMotion ||
        (!s.tracked.sawInitialPenUp &&
          (MovesXY words || ((words .Z).isSome && !LiftsPen options words s.tracked.z))) }
  := by
  unfold noteUnsafeMotion MovesXY LiftsPen tracked
  dsimp only
  split
  · next h =>
      rw [h, Bool.or_true]
      rfl
  · next h => rw [Bool.eq_false_iff.mpr h, Bool.or_false]

@[simp] theorem tracked_liftPen (s : CheckState) :
  (s.liftPen lineNo words).tracked =
    { s.tracked with
      sawInitialPenUp := s.tracked.sawInitialPenUp ||
        (!s.tracked.unsafeMotion && !MovesXY words && s.tracked.sawUnits &&
          s.tracked.sawAbsolute && s.tracked.sawWorkCoordinate) }
  := by
  have h := tracked_closeDrawPath s
  have hsaw : ∀ a b : Bool, (if (!a && b) = true then true else a) = (a || b) := by decide
  unfold tracked at h ⊢
  simp only [Tracked.mk.injEq] at h
  unfold liftPen MovesXY
  simp only [Bool.and_assoc, hsaw]
  simp only [Tracked.mk.injEq, true_and]
  tauto

/-- What the stage of the `Z` axis does to the tracked part. -/
@[simp] theorem tracked_checkZ (s : CheckState) :
  (s.checkZ options lineNo words).tracked =
    { s.tracked with
      sawInitialPenUp := s.tracked.sawInitialPenUp ||
        (LiftsPen options words s.tracked.z && !s.tracked.unsafeMotion && !MovesXY words &&
          s.tracked.sawUnits && s.tracked.sawAbsolute && s.tracked.sawWorkCoordinate) }
  := by
  unfold checkZ
  split
  · next hz =>
      split
      · next hup =>
          have hlift : LiftsPen options words s.tracked.z = true := by
            rw [LiftsPen, hz, Bool.true_and]
            exact decide_eq_true hup
          rw [tracked_liftPen, hlift, Bool.true_and]
      · next hup =>
          have hlift : LiftsPen options words s.tracked.z = false := by
            rw [LiftsPen, hz, Bool.true_and]
            exact decide_eq_false hup
          rw [hlift]
          simp only [Bool.false_and, Bool.or_false]
          split <;> rfl
  · next hz =>
      have hlift : LiftsPen options words s.tracked.z = false := by
        simp [LiftsPen, hz]
      rw [hlift]
      simp only [Bool.false_and, Bool.or_false]

/-- The stage of the `Z` axis blocks the text exactly for a height that is neither that of
the lifted nor that of the lowered pen. -/
theorem noBlocker_checkZ_iff {s : CheckState} :
  NoBlocker (s.checkZ options lineNo words).checks ↔
    NoBlocker s.checks ∧
      ((words .Z).isSome = true → Near s.tracked.z options.penUpZ options.zTolerance ∨
        Near s.tracked.z options.penDownZ options.zTolerance)
  := by
  have htracked : s.tracked.z = s.z := rfl
  rw [htracked]
  unfold checkZ
  split
  · next hz =>
      split
      · next hup => simp [liftPen, hup]
      · next hup =>
          split
          · next hdown => simp [lowerPen, hdown]
          · next hdown => simp [hz, hup, hdown]
  · next hz => simp [hz]

/-- The height `z` is low enough for the pen to touch the paper. -/
def IsDown (options : StaticCheckOptions) (z : ℚ) : Prop :=
  z ≤ options.penDownZ + options.zTolerance

instance (options : StaticCheckOptions) (z : ℚ) : Decidable (IsDown options z) :=
  inferInstanceAs (Decidable (_ ≤ _))

/-- The tracked part with one more motion in the plane. -/
def Tracked.addSegment (t : Tracked) (draws : Prop) [Decidable draws] (segment : Segment) :
    Tracked :=
  if draws then
    { t with
      drawSegments := t.drawSegments ++ [segment]
      hasDrawn := t.hasDrawn || decide (segment.LongerThan 0) }
  else
    { t with travelSegments := t.travelSegments ++ [segment] }

/-- What the stage of the plane does to the tracked part. -/
theorem tracked_checkXY {motion : Motion} {start : Point} {startZ : ℚ} (s : CheckState) :
  (s.checkXY options lineNo words motion start startZ).tracked =
    if MovesXY words = true then
      s.tracked.addSegment (motion = .linear ∧ IsDown options startZ ∧ IsDown options s.tracked.z)
        ⟨start, s.tracked.position⟩
    else s.tracked
  := by
  have hdown : (decide (startZ ≤ options.penDownZ + options.zTolerance) &&
      decide (s.z ≤ options.penDownZ + options.zTolerance)) = true ↔
      IsDown options startZ ∧ IsDown options s.tracked.z := by
    simp only [Bool.and_eq_true, decide_eq_true_eq]
    exact Iff.rfl
  unfold checkXY Tracked.addSegment
  dsimp only
  simp only [hdown]
  split
  · next hxy =>
      rw [if_pos (show MovesXY words = true from hxy)]
      by_cases hdraw : motion = .linear ∧ IsDown options startZ ∧ IsDown options s.tracked.z
      · rw [if_pos hdraw, if_pos hdraw]
        rfl
      · rw [if_neg hdraw, if_neg hdraw]
        split <;> rfl
  · next hxy => rw [if_neg (show ¬ MovesXY words = true from hxy)]

/-- The stage of the plane blocks the text exactly for a long motion of the lowered pen
that does not draw. -/
theorem noBlocker_checkXY_iff {s : CheckState} {motion : Motion} {start : Point} {startZ : ℚ} :
  NoBlocker (s.checkXY options lineNo words motion start startZ).checks ↔
    NoBlocker s.checks ∧
      (MovesXY words = true → motion = .rapid → IsDown options startZ →
        IsDown options s.tracked.z →
        ¬ Segment.LongerThan ⟨start, s.tracked.position⟩ options.maxPenDownTravelMm)
  := by
  have hdown : (decide (startZ ≤ options.penDownZ + options.zTolerance) &&
      decide (s.z ≤ options.penDownZ + options.zTolerance)) = true ↔
      IsDown options startZ ∧ IsDown options s.tracked.z := by
    simp only [Bool.and_eq_true, decide_eq_true_eq]
    exact Iff.rfl
  have hposition : s.tracked.position = s.position := rfl
  have hmotion : motion = .rapid ↔ ¬ motion = .linear := by cases motion <;> decide
  unfold checkXY
  dsimp only
  simp only [hdown]
  split
  · next hxy =>
      have hxy' : MovesXY words = true := hxy
      split
      · next hdraw => simp [hdraw.1]
      · next hdraw =>
          split
          · next hlong =>
              have hrapid : motion = .rapid := by
                rw [hmotion]
                exact fun hlinear => hdraw ⟨hlinear, hlong.1⟩
              simp [hxy', hrapid, hlong.1.1, hlong.1.2, hposition, hlong.2]
          · next hlong =>
              constructor
              · intro hb
                exact ⟨hb, fun _ _ hs hz hl => hlong ⟨⟨hs, hz⟩, hl⟩⟩
              · exact fun hb => hb.1
  · next hxy =>
      have hxy' : MovesXY words = false := Bool.eq_false_iff.mpr hxy
      simp [hxy']

/-! ### A whole motion -/

/-- Where the axis words of a line lead in the plane. -/
def Tracked.targetPlane (t : Tracked) (words : Words) : Point :=
  ⟨(words .X).getD t.position.x, (words .Y).getD t.position.y⟩

/-- The height the axis words of a line lead to. -/
def Tracked.targetZ (t : Tracked) (words : Words) : ℚ := (words .Z).getD t.z

/-- The tracked part after the stages of a motion that do not look at segments. -/
def Tracked.moved (t : Tracked) (options : StaticCheckOptions) (words : Words) : Tracked :=
  let unsafeMotion := t.unsafeMotion ||
    (!t.sawInitialPenUp &&
      (MovesXY words || ((words .Z).isSome && !LiftsPen options words (t.targetZ words))))
  { t with
    position := t.targetPlane words
    z := t.targetZ words
    unsafeMotion := unsafeMotion
    sawInitialPenUp := t.sawInitialPenUp ||
      (LiftsPen options words (t.targetZ words) && !unsafeMotion && !MovesXY words &&
        t.sawUnits && t.sawAbsolute && t.sawWorkCoordinate) }

/-- What the stages of a motion do to the tracked part. -/
theorem tracked_checkMotion (s : CheckState) (motion : Motion) :
  (s.checkMotion options lineNo words motion).tracked =
    if MovesXY words = true then
      (s.tracked.moved options words).addSegment
        (motion = .linear ∧ IsDown options s.tracked.z ∧ IsDown options (s.tracked.targetZ words))
        ⟨s.tracked.position, s.tracked.targetPlane words⟩
    else s.tracked.moved options words
  := by
  have hmoved : (((s.moveTo words).noteUnsafeMotion options words).checkZ options lineNo
      words).tracked = s.tracked.moved options words := by
    rw [tracked_checkZ, tracked_noteUnsafeMotion, tracked_moveTo]
    rfl
  have hxy : ((((s.moveTo words).noteUnsafeMotion options words).checkZ options lineNo
      words).checkXY options lineNo words motion s.position s.z).tracked = _ := tracked_checkXY _
  rw [hmoved] at hxy
  exact hxy

/-- When the stages of a motion do not block the text. -/
theorem noBlocker_checkMotion_iff {s : CheckState} {motion : Motion} :
  NoBlocker (s.checkMotion options lineNo words motion).checks ↔
    NoBlocker s.checks ∧
      ((words .Z).isSome = true →
        Near (s.tracked.targetZ words) options.penUpZ options.zTolerance ∨
          Near (s.tracked.targetZ words) options.penDownZ options.zTolerance) ∧
      (MovesXY words = true → motion = .rapid → IsDown options s.tracked.z →
        IsDown options (s.tracked.targetZ words) →
        ¬ Segment.LongerThan ⟨s.tracked.position, s.tracked.targetPlane words⟩
          options.maxPenDownTravelMm)
  := by
  have hmoved : (((s.moveTo words).noteUnsafeMotion options words).checkZ options lineNo
      words).tracked = s.tracked.moved options words := by
    rw [tracked_checkZ, tracked_noteUnsafeMotion, tracked_moveTo]
    rfl
  have hz : ((s.moveTo words).noteUnsafeMotion options words).tracked.z
      = s.tracked.targetZ words := by
    rw [tracked_noteUnsafeMotion, tracked_moveTo]
    rfl
  have hxy : NoBlocker ((((s.moveTo words).noteUnsafeMotion options words).checkZ options lineNo
      words).checkXY options lineNo words motion s.position s.z).checks ↔ _ :=
    noBlocker_checkXY_iff
  rw [hmoved, noBlocker_checkZ_iff, hz, checks_noteUnsafeMotion] at hxy
  exact hxy.trans and_assoc

end Motion

/-! ### The whole text -/

/-- The findings about the whole text block it exactly when it draws nothing with the lowered
pen, or does not start or end safely. -/
theorem noBlocker_wholeChecks_iff {options : StaticCheckOptions} {s : CheckState} :
  NoBlocker (s.wholeChecks options) ↔
    (s.penDowns > 0 → s.hasPositiveFiniteDrawGeometry = true) ∧
      (s.sawUnits && s.sawAbsolute && s.sawWorkCoordinate && s.sawInitialPenUp) = true ∧
      s.terminalEndMarker = true ∧ Near s.z options.penUpZ options.zTolerance
  := by
  have hif : ∀ {p : Prop} [Decidable p] {code : String} {message : List MessagePart},
      NoBlocker (if p then [⟨.blocker, code, message⟩] else []) ↔ ¬ p := by
    intro p _ code message
    split <;> simp_all
  unfold wholeChecks
  simp only [noBlocker_append, hif, and_assoc]
  simp

/-- The findings about the bounds block the text exactly when an end of a segment is outside of
the machine. -/
theorem noBlocker_geometryChecks_iff {options : StaticCheckOptions} {segments : List Segment} :
  NoBlocker (geometryChecks segments options) ↔
    ∀ p ∈ segmentEnds segments, ¬ Outside options.machineWidthMm options.machineHeightMm p
  := by
  have hif : ∀ {p : Prop} [Decidable p] {check : SafetyCheck},
      NoBlocker (if p then [check] else []) ↔ (p → check.severity ≠ .blocker) := by
    intro p _ check
    split <;> simp_all
  unfold geometryChecks
  simp [hif, List.countP_eq_zero]

end CheckState

end DrawingMachine
