import DrawingMachine.Gcode.Rendering
import DrawingMachine.Gcode.Soundness

/-!
# The static check of a rendered text

How the static check reads a text that the builder has rendered. The first part says what a
rendered line does to the state of the check, the rest follows the check from line to line:
`Reached` is the state between two rendered lines.
-/

namespace DrawingMachine

open CheckState

/-! ### Reading a rendered line -/

/-- The code of a modal motion. -/
def Motion.code : Motion → ℚ
  | .rapid => 0
  | .linear => 1

/-- The part of the state of the check that says where the commands and the end marker are. -/
structure CheckState.Marks where
  endMarkerLine : Option Nat
  sendableAfterEndMarker : Bool
  lastSendableLine : Option Nat
  lastExplicitPenUpLine : Option Nat

/-- Where the commands and the end marker are. -/
def CheckState.marks (s : CheckState) : Marks where
  endMarkerLine := s.endMarkerLine
  sendableAfterEndMarker := s.sendableAfterEndMarker
  lastSendableLine := s.lastSendableLine
  lastExplicitPenUpLine := s.lastExplicitPenUpLine

/-- The state in which the motion of a line starts. -/
def CheckState.beginMotion (s : CheckState) (lineNo : Nat) (motion : Motion) (feed : ℚ) :
    CheckState :=
  { s.noteSendable lineNo with
    sawMotion := true
    activeMotion := some motion
    maxFeedSeen := max s.maxFeedSeen feed }

/-- A line that starts with a visible character has no end marker, unless it starts with one. -/
theorem noteEndMarker_eq_self (line : Text) {c : Char} (hhead : line.head? = some c)
    (hspace : Text.isSpace c = false) (hend : ¬ "; End".toList <+: line) (lineNo : Nat)
    (s : CheckState) :
  s.noteEndMarker lineNo line = s
  := by
  have hstrip : Text.strip line <+: line := by
    have hl : Text.lstrip line = line := by
      cases line with
      | nil => cases hhead
      | cons d rest =>
          cases hhead
          simp [Text.lstrip, hspace]
    rw [Text.strip, hl]
    apply List.rdropWhile_prefix
  unfold noteEndMarker
  rw [if_neg]
  intro heq
  apply hend
  rw [← heq]
  apply hstrip

section Line

variable {ucd : UnicodeData} {options : StaticCheckOptions} {s : CheckState} {lineNo : Nat}

/-- A line of comment leaves the state alone, unless it is the end marker. -/
theorem checkLine_comment {line : Text} (hhead : line.head? = some ';')
    (hend : ¬ "; End".toList <+: line) :
  s.checkLine ucd options (line, lineNo) = s
  := by
  have hnote := noteEndMarker_eq_self line hhead (by decide) hend lineNo s
  have hcommand : commandOf line = [] := by
    obtain ⟨rest, rfl⟩ := List.head?_eq_some_iff.mp hhead
    apply commandOf_comment
  simp [checkLine, parsedLine, hcommand, hnote]

/-- A line with a command that is not the end marker. -/
theorem checkLine_command {line command : Text} (hhead : line.head? = some 'G')
    (hcommand : commandOf line = command) (hne : command ≠ []) :
  s.checkLine ucd options (line, lineNo) = settle (s.checkCommand ucd options lineNo command)
  := by
  have hend : ¬ "; End".toList <+: line := by
    intro h
    obtain ⟨rest, rfl⟩ := h
    cases hhead
  have hnote := noteEndMarker_eq_self line hhead (by decide) hend lineNo s
  simp [checkLine, parsedLine, hcommand, hnote, hne]

variable {line : Text} {words : Words} {motion : Motion} {feed : ℚ}

/-- The stages of a line with a motion that are left after its `G` word. -/
theorem checkCommand_motion (hparse : parseWords ucd line = ⟨words, []⟩)
    (hG : words .G = some motion.code) :
  s.checkCommand ucd options lineNo line = (do
    let s ← checkF options lineNo words
      { s.noteSendable lineNo with sawMotion := true, activeMotion := some motion }
    let (motion, s) ← checkActiveMotion lineNo words s
    return s.checkMotion options lineNo words motion)
  := by
  have hissues : checkIssues lineNo [] (s.noteSendable lineNo) = .ok (s.noteSendable lineNo) :=
    checkIssues_eq_ok_iff.mpr ⟨rfl, rfl⟩
  have hg : checkG lineNo words (s.noteSendable lineNo)
      = .ok { s.noteSendable lineNo with sawMotion := true, activeMotion := some motion } := by
    unfold checkG
    rw [hG]
    cases motion <;> rfl
  unfold checkCommand
  simp only [hparse, hissues, hg, bind, Except.bind]

/-- A line with a motion and a feed within the limits. -/
theorem checkCommand_of_feed (motion : Motion) (hparse : parseWords ucd line = ⟨words, []⟩)
    (hG : words .G = some motion.code) (hF : words .F = some feed) (hpos : 0 < feed)
    (hmax : feed ≤ options.maxFeed) :
  s.checkCommand ucd options lineNo line
    = .ok ((s.beginMotion lineNo motion feed).checkMotion options lineNo words motion)
  := by
  rw [checkCommand_motion hparse hG]
  simp only [checkF, hF, not_le.mpr hpos, not_lt.mpr hmax, if_false]
  rfl

/-- A line with a motion passes only with a feed within the limits. -/
theorem feed_of_noBlocker (motion : Motion) (hparse : parseWords ucd line = ⟨words, []⟩)
    (hG : words .G = some motion.code) (hF : words .F = some feed)
    (hb : NoBlocker (settle (s.checkCommand ucd options lineNo line)).checks) :
  0 < feed ∧ feed ≤ options.maxFeed
  := by
  rw [checkCommand_motion hparse hG] at hb
  by_cases hpos : feed ≤ 0
  · simp [checkF, hF, hpos, settle, bind, Except.bind] at hb
  · by_cases hmax : feed > options.maxFeed
    · simp only [checkF, hF, hpos, hmax, if_false, if_true, bind, Except.bind, checkActiveMotion,
        block, settle] at hb
      have hchecks := (noBlocker_checkMotion_iff.mp hb).1
      simp at hchecks
    · exact ⟨not_le.mp hpos, not_lt.mp hmax⟩

/-- Where the commands are after the stages of a motion. -/
theorem marks_checkMotion :
  (s.checkMotion options lineNo words motion).marks =
    { s.marks with
      lastExplicitPenUpLine :=
        if LiftsPen options words (s.tracked.targetZ words) then some lineNo
        else s.marks.lastExplicitPenUpLine }
  := by
  have hnote : ∀ t : CheckState, (t.noteUnsafeMotion options words).marks = t.marks := by
    intro t
    unfold noteUnsafeMotion
    dsimp only
    split <;> rfl
  have hclose : ∀ t : CheckState, t.closeDrawPath.marks = t.marks := by
    intro t
    unfold closeDrawPath
    split <;> rfl
  have hxy : ∀ (t : CheckState) (p : Point) (z : ℚ),
      (t.checkXY options lineNo words motion p z).marks = t.marks := by
    intro t p z
    unfold checkXY
    split
    · dsimp only
      split
      · rfl
      · split <;> rfl
    · rfl
  have hz : ∀ t : CheckState, (t.checkZ options lineNo words).marks =
      { t.marks with
        lastExplicitPenUpLine :=
          if LiftsPen options words t.z then some lineNo
          else t.marks.lastExplicitPenUpLine } := by
    intro t
    have hlift := hclose t
    unfold checkZ LiftsPen
    cases (words .Z).isSome with
    | false => rfl
    | true =>
        by_cases hup : Near t.z options.penUpZ options.zTolerance
        · simp only [if_true, hup, decide_true, Bool.and_self]
          unfold liftPen marks at *
          simp_all
        · simp only [if_true, hup, if_false, decide_false, Bool.and_false, Bool.false_eq_true]
          split <;> rfl
  have htarget : ((s.moveTo words).noteUnsafeMotion options words).z
      = s.tracked.targetZ words := by
    unfold noteUnsafeMotion
    dsimp only
    split <;> rfl
  have hmoved := hz ((s.moveTo words).noteUnsafeMotion options words)
  rw [hnote, htarget] at hmoved
  exact (hxy _ s.position s.z).trans hmoved

/-- A line that moves the pen is a command. -/
theorem checkLine_penLine (z feed : ℚ) :
  s.checkLine ucd options (penLine z feed, lineNo)
    = settle (s.checkCommand ucd options lineNo (penLine z feed))
  := checkLine_command rfl (commandOf_penLine z feed) (by simp [penLine])

/-- A line that moves the tool is a command. -/
theorem checkLine_moveLine {command : String} {rest : Text} (hg : command.toList = 'G' :: rest)
    (hplain : Plain command.toList) (p : Point) (feed : ℚ) :
  s.checkLine ucd options (moveLine command p feed, lineNo)
    = settle (s.checkCommand ucd options lineNo (moveLine command p feed))
  := by
  apply checkLine_command _ (commandOf_moveLine hg hplain p feed)
  · simp [moveLine, hg]
  · simp [moveLine, hg]

end Line

/-! ### The state between two rendered lines -/

/-- The check has read the text up to the line `n`. The tool is at the point `p` and at the
height `z`, the segments so far are `draws` and `travels`, the text has started safely and has
not ended, and it passes exactly when `ok` holds. -/
structure Reached (s : CheckState) (n : Nat) (p : Point) (z : ℚ) (draws travels : List Segment)
    (ok : Prop) : Prop where
  position : s.tracked.position = p
  height : s.tracked.z = z
  drawSegments : s.tracked.drawSegments = draws
  travelSegments : s.tracked.travelSegments = travels
  hasDrawn : s.tracked.hasDrawn = true ↔ ∃ segment ∈ draws, segment.LongerThan 0
  started : (s.tracked.sawUnits && s.tracked.sawAbsolute && s.tracked.sawWorkCoordinate &&
    s.tracked.sawInitialPenUp) = true
  unmarked : s.marks.endMarkerLine = none ∧ s.marks.sendableAfterEndMarker = false
  sendable : ∀ k ∈ s.marks.lastSendableLine, k < n
  lifted : ∃ k < n, s.marks.lastExplicitPenUpLine = some k
  passes : NoBlocker s.checks ↔ ok

namespace Reached

variable {options : StaticCheckOptions} {s : CheckState} {n : Nat} {p : Point}
  {z : ℚ} {draws travels : List Segment} {ok : Prop}

theorem congr {ok' : Prop} (h : Reached s n p z draws travels ok) (hok : ok ↔ ok') :
  Reached s n p z draws travels ok'
  :=
  { h with passes := h.passes.trans hok }

/-- A later line has been reached as well. -/
theorem succ (h : Reached s n p z draws travels ok) : Reached s (n + 1) p z draws travels ok := by
  obtain ⟨k, hk, hlast⟩ := h.lifted
  exact { h with
    sendable := fun k hk => Nat.lt_succ_of_lt (h.sendable k hk)
    lifted := ⟨k, Nat.lt_succ_of_lt hk, hlast⟩ }

/-- A motion keeps the start of the text and the order of its lines. -/
theorem motion (h : Reached s n p z draws travels ok) {words : Words} {motion : Motion} {feed : ℚ}
    {p' : Point} {z' : ℚ} {draws' travels' : List Segment} {ok' : Prop} {t : Tracked}
    (ht : ((s.beginMotion n motion feed).checkMotion options n words motion).tracked = t)
    (hposition : t.position = p') (hheight : t.z = z') (hdraws : t.drawSegments = draws')
    (htravels : t.travelSegments = travels')
    (hdrawn : t.hasDrawn = true ↔ ∃ segment ∈ draws', segment.LongerThan 0)
    (hstarted : t.sawUnits = s.tracked.sawUnits ∧ t.sawAbsolute = s.tracked.sawAbsolute ∧
      t.sawWorkCoordinate = s.tracked.sawWorkCoordinate ∧
      (s.tracked.sawInitialPenUp = true → t.sawInitialPenUp = true))
    (hpasses : NoBlocker ((s.beginMotion n motion feed).checkMotion options n words motion).checks
      ↔ ok') :
  Reached ((s.beginMotion n motion feed).checkMotion options n words motion) (n + 1) p' z' draws'
    travels' ok'
  := by
  subst ht
  obtain ⟨k, hk, hlast⟩ := h.lifted
  have hstart := h.started
  simp only [Bool.and_eq_true] at hstart
  obtain ⟨hunits, habsolute, hwork, hinitial⟩ := hstarted
  exact {
    position := hposition
    height := hheight
    drawSegments := hdraws
    travelSegments := htravels
    hasDrawn := hdrawn
    started := by
      rw [hunits, habsolute, hwork, hstart.1.1.1, hstart.1.1.2, hstart.1.2, hinitial hstart.2]
      rfl
    unmarked := by
      rw [marks_checkMotion]
      refine ⟨h.unmarked.1, ?_⟩
      change (s.marks.sendableAfterEndMarker || s.marks.endMarkerLine.isSome) = false
      rw [h.unmarked.1, h.unmarked.2]
      rfl
    sendable := by
      rw [marks_checkMotion]
      intro k hk
      cases hk
      omega
    lifted := by
      rw [marks_checkMotion]
      dsimp only
      split
      · exact ⟨n, by omega, rfl⟩
      · exact ⟨k, by omega, hlast⟩
    passes := hpasses }

/-- A line that moves the pen to one of its two heights. -/
theorem pen (ucd : UnicodeData) (options : StaticCheckOptions)
    (h : Reached s n p z draws travels ok) {z' feed : ℚ}
    (hnear : Near (roundTo 3 z') options.penUpZ options.zTolerance ∨
      Near (roundTo 3 z') options.penDownZ options.zTolerance)
    (hpos : 0 < roundTo 1 feed) (hmax : roundTo 1 feed ≤ options.maxFeed) :
  Reached (s.checkLine ucd options (penLine z' feed, n)) (n + 1) p (roundTo 3 z') draws travels ok
  := by
  rw [checkLine_penLine,
    checkCommand_of_feed .linear (parseWords_penLine ucd z' feed) rfl rfl hpos hmax]
  apply h.motion (tracked_checkMotion _ _)
  · apply h.position
  · rfl
  · apply h.drawSegments
  · apply h.travelSegments
  · apply h.hasDrawn
  · refine ⟨rfl, rfl, rfl, fun hs => ?_⟩
    change (s.tracked.sawInitialPenUp || _) = true
    rw [hs]
    rfl
  · rw [noBlocker_checkMotion_iff, ← h.passes]
    constructor
    · apply And.left
    · intro hb
      exact ⟨hb, fun _ => hnear, fun hxy => by cases hxy⟩

theorem movesXY_moveWords (g : ℚ) (q : Point) (feed : ℚ) :
  MovesXY (moveWords g q feed) = true
  := rfl

/-- A line that moves the lifted tool to a point. -/
theorem travel (ucd : UnicodeData) (options : StaticCheckOptions)
    (h : Reached s n p z draws travels ok) {q : Point} {feed : ℚ}
    (hpos : 0 < roundTo 1 feed) (hmax : roundTo 1 feed ≤ options.maxFeed) :
  Reached (s.checkLine ucd options (moveLine "G0" q feed, n)) (n + 1) (quantize q) z draws
    (travels ++ [⟨p, quantize q⟩])
    (ok ∧ (IsDown options z → ¬ Segment.LongerThan ⟨p, quantize q⟩ options.maxPenDownTravelMm))
  := by
  rw [checkLine_moveLine rfl (by decide), checkCommand_of_feed .rapid
    (parseWords_moveLine ucd (g := 0) rfl q feed) (by simp [moveWords, Motion.code]) rfl hpos hmax]
  have htracked : ((s.beginMotion n .rapid (roundTo 1 feed)).checkMotion options n
      (moveWords (0 : ℕ) (quantize q) (roundTo 1 feed)) .rapid).tracked
      = { (s.beginMotion n .rapid (roundTo 1 feed)).tracked.moved options
            (moveWords (0 : ℕ) (quantize q) (roundTo 1 feed)) with
          travelSegments := travels ++ [⟨p, quantize q⟩] } := by
    rw [tracked_checkMotion, if_pos (movesXY_moveWords _ _ _), Tracked.addSegment, if_neg (by simp), ← h.position,
      ← h.travelSegments]
    rfl
  apply h.motion htracked rfl h.height h.drawSegments rfl h.hasDrawn
  · refine ⟨rfl, rfl, rfl, fun hs => ?_⟩
    change (s.tracked.sawInitialPenUp || _) = true
    rw [hs]
    rfl
  · rw [noBlocker_checkMotion_iff, ← h.passes, ← h.position, ← h.height]
    constructor
    · rintro ⟨hb, -, htravel⟩
      exact ⟨hb, fun hdown => htravel rfl rfl hdown hdown⟩
    · rintro ⟨hb, htravel⟩
      exact ⟨hb, fun hz => (by cases hz), fun _ _ hdown _ => htravel hdown⟩

/-- A line that moves the lowered tool to a point. -/
theorem draw (ucd : UnicodeData) (options : StaticCheckOptions)
    (h : Reached s n p z draws travels ok)
    (hdown : IsDown options z) {q : Point} {feed : ℚ} (hpos : 0 < roundTo 1 feed) (hmax : roundTo 1 feed ≤ options.maxFeed) :
  Reached (s.checkLine ucd options (moveLine "G1" q feed, n)) (n + 1) (quantize q) z
    (draws ++ [⟨p, quantize q⟩]) travels ok
  := by
  rw [checkLine_moveLine rfl (by decide), checkCommand_of_feed .linear
    (parseWords_moveLine ucd (g := 1) rfl q feed) (by simp [moveWords, Motion.code]) rfl hpos hmax]
  have htracked : ((s.beginMotion n .linear (roundTo 1 feed)).checkMotion options n
      (moveWords (1 : ℕ) (quantize q) (roundTo 1 feed)) .linear).tracked
      = { (s.beginMotion n .linear (roundTo 1 feed)).tracked.moved options
            (moveWords (1 : ℕ) (quantize q) (roundTo 1 feed)) with
          drawSegments := draws ++ [⟨p, quantize q⟩]
          hasDrawn := s.tracked.hasDrawn || decide (Segment.LongerThan ⟨p, quantize q⟩ 0) } := by
    have hz : IsDown options s.tracked.z := h.height ▸ hdown
    rw [tracked_checkMotion, if_pos (movesXY_moveWords _ _ _), Tracked.addSegment, if_pos ⟨rfl, hz, hz⟩, ← h.position,
      ← h.drawSegments]
    rfl
  apply h.motion htracked rfl h.height rfl h.travelSegments
  · simp only [Bool.or_eq_true, h.hasDrawn, decide_eq_true_eq, List.mem_append,
      List.mem_singleton]
    grind
  · refine ⟨rfl, rfl, rfl, fun hs => ?_⟩
    change (s.tracked.sawInitialPenUp || _) = true
    rw [hs]
    rfl
  · rw [noBlocker_checkMotion_iff, ← h.passes]
    constructor
    · apply And.left
    · intro hb
      exact ⟨hb, fun hz => (by cases hz), fun _ hmotion => by cases hmotion⟩

end Reached

/-! ### The rendered paths -/

/-- The limits the profile gives to the feeds, as they are written. -/
def FeedsWithin (profile : MachineBuildProfile) : Prop :=
  ∀ feed ∈ [profile.val.feedTravel, profile.val.feedDraw, profile.val.feedPenDown,
      profile.val.feedPenUp],
    0 < roundTo 1 feed ∧ roundTo 1 feed ≤ profile.val.maxFeed

/-- The motions of the lifted tool to the starts of the paths, as they are written. -/
def travelsFrom : Point → List ProductionPath → List Segment
  | _, [] => []
  | p, path :: paths =>
      ⟨p, quantize path.first⟩ :: travelsFrom (quantize path.last) paths

/-- The segments that a path draws, as they are written. -/
def drawsOf (path : ProductionPath) : List Segment := segmentsOf (path.pointsMm.map quantize)

/-- Where the tool is after the paths. -/
def endOf : Point → List ProductionPath → Point
  | p, [] => p
  | _, path :: paths => endOf (quantize path.last) paths

/-- Read lines, the first of which has the number `n`. -/
def CheckState.runLines (ucd : UnicodeData) (options : StaticCheckOptions) (s : CheckState) (n : Nat)
    (lines : List Text) : CheckState :=
  (lines.zipIdx n).foldl (checkLine ucd options) s

namespace CheckState

variable {ucd : UnicodeData} {options : StaticCheckOptions} {s : CheckState} {n : Nat}

@[simp] theorem runLines_nil : s.runLines ucd options n [] = s := rfl

@[simp] theorem runLines_cons {line : Text} {lines : List Text} :
  s.runLines ucd options n (line :: lines)
    = (s.checkLine ucd options (line, n)).runLines ucd options (n + 1) lines
  := rfl

theorem runLines_append {lines lines' : List Text} :
  s.runLines ucd options n (lines ++ lines')
    = (s.runLines ucd options n lines).runLines ucd options (n + lines.length) lines'
  := by
  induction lines generalizing s n with
  | nil => rfl
  | cons line lines ih =>
      rw [List.cons_append, runLines_cons, ih, runLines_cons, List.length_cons, Nat.add_right_comm,
        Nat.add_assoc]

/-- Lines pass only when each of them does. -/
theorem noBlocker_of_runLines {lines : List Text}
    (hb : NoBlocker (s.runLines ucd options n lines).checks) {line : Text} (hline : line ∈ lines) :
  ∃ s' n', NoBlocker (checkLine ucd options s' (line, n')).checks
  := by
  induction lines generalizing s n with
  | nil => cases hline
  | cons first lines ih =>
      rcases List.mem_cons.mp hline with rfl | hline
      · rw [runLines_cons] at hb
        use s, n
        apply noBlocker_of_foldl hb
      · apply ih hb hline

end CheckState

section Paths

variable (ucd : UnicodeData) {profile : MachineBuildProfile} (inputName : String)

/-- The height of the lifted pen is written close enough to be recognised. -/
theorem near_roundTo (z : ℚ) : Near (roundTo 3 z) z (1 / 100) := by
  have h := abs_roundTo_sub_le 3 z
  unfold Near
  linarith

/-- The height of the lowered pen is written low enough. -/
theorem isDown_roundTo (profile : MachineBuildProfile) (inputName : String) :
  IsDown (candidateOptions profile inputName) (roundTo 3 profile.val.penDownZ)
  := by
  have h := (abs_le.mp (near_roundTo profile.val.penDownZ)).2
  simp only [IsDown, candidateOptions]
  linarith

/-- The lines that draw points. -/
theorem Reached.points {s : CheckState} {n : Nat} {p : Point} {z : ℚ} {draws travels : List Segment}
    {ok : Prop} (h : Reached s n (quantize p) z draws travels ok)
    (hdown : IsDown (candidateOptions profile inputName) z) (hfeeds : FeedsWithin profile)
    (points : List Point) :
  Reached
    (s.runLines ucd (candidateOptions profile inputName) n
      (points.map (moveLine "G1" · profile.val.feedDraw)))
    (n + points.length) (quantize ((p :: points).getLast (by simp))) z
    (draws ++ segmentsOf ((p :: points).map quantize)) travels ok
  := by
  induction points generalizing s n p draws with
  | nil => simpa [segmentsOf] using h
  | cons q points ih =>
      obtain ⟨hpos, hmax⟩ := hfeeds profile.val.feedDraw (by simp)
      have hq := ih (h.draw ucd _ hdown (q := q) hpos hmax)
      rw [List.map_cons, runLines_cons, List.length_cons]
      simpa [segmentsOf, List.append_assoc, Nat.add_comm, Nat.add_left_comm] using hq

/-- The lines of a path. -/
theorem Reached.path {s : CheckState} {n : Nat} {p : Point} {draws travels : List Segment}
    {ok : Prop} (h : Reached s n p (roundTo 3 profile.val.penUpZ) draws travels ok)
    (hfeeds : FeedsWithin profile) (path : ProductionPath) :
  Reached
    (s.runLines ucd (candidateOptions profile inputName) n (renderPath profile path))
    (n + (renderPath profile path).length) (quantize path.last) (roundTo 3 profile.val.penUpZ)
    (draws ++ drawsOf path) (travels ++ [⟨p, quantize path.first⟩])
    (ok ∧ (IsDown (candidateOptions profile inputName) (roundTo 3 profile.val.penUpZ) →
      ¬ Segment.LongerThan ⟨p, quantize path.first⟩ (1 / 20)))
  := by
  obtain ⟨htravel, hdraw, hpenDown, hpenUp⟩ : _ ∧ _ ∧ _ ∧ _ := by
    simpa [FeedsWithin] using hfeeds
  have hpoints : path.first :: path.pointsMm.tail = path.pointsMm := List.cons_head_tail _
  have hcomment : s.checkLine ucd (candidateOptions profile inputName)
      (("; path " ++ path.id ++ " group=" ++ path.group ++ " source=" ++ path.source).toList, n)
      = s := by
    apply checkLine_comment
    · simp
    · simp
  have hmoved := h.succ.travel ucd (candidateOptions profile inputName) (q := path.first) htravel.1
    htravel.2
  have hlowered := hmoved.pen ucd (candidateOptions profile inputName)
    (.inr (near_roundTo profile.val.penDownZ)) hpenDown.1 hpenDown.2
  have hdrawn := hlowered.points ucd inputName (isDown_roundTo profile inputName) hfeeds
    path.pointsMm.tail
  have hlifted := hdrawn.pen ucd (candidateOptions profile inputName)
    (.inl (near_roundTo profile.val.penUpZ)) hpenUp.1 hpenUp.2
  have hnumber : n + (renderPath profile path).length
      = n + 1 + 1 + 1 + path.pointsMm.tail.length + 1 := by
    simp [renderPath]
    omega
  simp only [hpoints] at hlifted
  rw [hnumber, renderPath, runLines_append, runLines_append]
  simp only [runLines_cons, runLines_nil, hcomment, List.length_append, List.length_map,
    List.length_cons, List.length_nil, Nat.zero_add, ← Nat.add_assoc]
  apply hlifted

/-- The lines of paths. -/
theorem Reached.paths {s : CheckState} {n : Nat} {p : Point} {draws travels : List Segment}
    {ok : Prop} (h : Reached s n p (roundTo 3 profile.val.penUpZ) draws travels ok)
    (hfeeds : FeedsWithin profile) (paths : List ProductionPath) :
  Reached
    (s.runLines ucd (candidateOptions profile inputName) n (paths.flatMap (renderPath profile)))
    (n + (paths.flatMap (renderPath profile)).length) (endOf p paths)
    (roundTo 3 profile.val.penUpZ) (draws ++ paths.flatMap drawsOf)
    (travels ++ travelsFrom p paths)
    (ok ∧ (IsDown (candidateOptions profile inputName) (roundTo 3 profile.val.penUpZ) →
      ∀ segment ∈ travelsFrom p paths, ¬ segment.LongerThan (1 / 20)))
  := by
  induction paths generalizing s n p draws travels ok with
  | nil => simpa [endOf, travelsFrom] using h
  | cons path paths ih =>
      have hrest := ih (h.path ucd inputName hfeeds path)
      rw [List.flatMap_cons, runLines_append, List.length_append]
      simp only [List.append_assoc, Nat.add_assoc, and_assoc] at hrest
      apply Reached.congr hrest
      simp only [travelsFrom, List.mem_cons, forall_eq_or_imp]
      tauto

end Paths

/-! ### The start of the text -/

section Start

variable {ucd : UnicodeData} {options : StaticCheckOptions} {s : CheckState} {lineNo : Nat}

/-- The words of a line with nothing but a code. -/
def codeWords (g : ℚ) : Words
  | .G => some g
  | _ => none

/-- A line with nothing but a code is read back. -/
theorem parseWords_code (ucd : UnicodeData) (g : ℕ) :
  parseWords ucd ('G' :: Nat.toDigits 10 g) = ⟨codeWords g, []⟩
  := by
  have htokens : tokens ucd ('G' :: Nat.toDigits 10 g) = [.word 'G' g] := by
    have h := tokensFrom_toDigits ucd (c := 'G') (by decide) g separated_nil
    rw [List.append_nil] at h
    rw [tokens, h]
    rfl
  have hG : WordLetter.ofChar? 'G'.toUpper = some .G := by decide
  rw [parseWords, htokens, List.foldl_cons, List.foldl_nil, ParsedWords.read_word hG rfl]
  congr 1
  funext letter
  cases letter <;> simp [codeWords, Words.empty]

/-- A line of the setup, before the first motion, leaves the state that its code gives. -/
theorem checkLine_code {line : Text} {g : ℕ} {s' : CheckState} (hhead : line.head? = some 'G')
    (hcommand : commandOf line = 'G' :: Nat.toDigits 10 g)
    (hg : checkG lineNo (codeWords g) (s.noteSendable lineNo) = .ok s')
    (hmotion : s'.activeMotion = none) :
  s.checkLine ucd options (line, lineNo) = s'
  := by
  have hissues : checkIssues lineNo [] (s.noteSendable lineNo) = .ok (s.noteSendable lineNo) :=
    checkIssues_eq_ok_iff.mpr ⟨rfl, rfl⟩
  rw [checkLine_command hhead hcommand (by simp)]
  unfold checkCommand
  simp only [parseWords_code, hissues, hg, bind, Except.bind]
  simp [checkF, codeWords, checkActiveMotion, hmotion, axisWords, settle]

/-- The state before the first motion of a rendered text. -/
def CheckState.setUp (options : StaticCheckOptions) : CheckState :=
  { initial options with
    sawUnits := true
    sawAbsolute := true
    sawWorkCoordinate := true
    lastSendableLine := some 9 }

/-- The lines in front of the first motion set up the units, the coordinates and the work
coordinate. -/
theorem runLines_renderStart (py : PythonPrinter) (plan : List (String × Json))
    (profile : MachineBuildProfile) :
  (initial options).runLines ucd options 1 (renderStart py plan profile)
    = (setUp options).checkLine ucd options
        (penLine profile.val.penUpZ profile.val.feedPenUp, 10)
  := by
  have hcomment : ∀ {line : Text} {n : Nat}, line.head? = some ';' → ¬ "; End".toList <+: line →
      (initial options).checkLine ucd options (line, n) = initial options :=
    fun hhead hend => checkLine_comment hhead hend
  have hunits : (initial options).checkLine ucd options ("G21 ; millimeters".toList, 7)
      = { initial options with sawUnits := true, lastSendableLine := some 7 } :=
    checkLine_code (g := 21) rfl (by decide +kernel) rfl rfl
  have habsolute : checkLine ucd options
      { initial options with sawUnits := true, lastSendableLine := some 7 }
      ("G90 ; absolute coordinates".toList, 8)
      = { initial options with
          sawUnits := true, sawAbsolute := true, lastSendableLine := some 8 } :=
    checkLine_code (g := 90) rfl (by decide +kernel) rfl rfl
  have hwork : checkLine ucd options
      { initial options with sawUnits := true, sawAbsolute := true, lastSendableLine := some 8 }
      (profile.val.workCoordinate.toList ++ " ; work coordinate".toList, 9) = setUp options := by
    rw [profile.valid.workCoordinate]
    exact checkLine_code (g := 54) rfl (by decide +kernel) rfl rfl
  unfold renderStart
  simp only [runLines_cons, runLines_nil, Nat.reduceAdd]
  rw [hcomment rfl (by simp), hcomment rfl (by simp), hcomment rfl (by simp),
    hcomment rfl (by simp), hcomment (by simp) (by simp), hcomment rfl (by simp), hunits,
    habsolute, hwork]

end Start

/-- The check has read the start of the text, and the pen is lifted. -/
theorem reached_renderStart (ucd : UnicodeData) (py : PythonPrinter) (plan : List (String × Json))
    {profile : MachineBuildProfile} (inputName : String) (hfeeds : FeedsWithin profile) :
  Reached
    ((initial (candidateOptions profile inputName)).runLines ucd
      (candidateOptions profile inputName) 1 (renderStart py plan profile))
    11 ⟨profile.val.paperCenterX, profile.val.paperCenterY⟩ (roundTo 3 profile.val.penUpZ) [] []
    True
  := by
  obtain ⟨hpos, hmax⟩ := hfeeds profile.val.feedPenUp (by simp)
  have hlifts : LiftsPen (candidateOptions profile inputName)
      (penWords (roundTo 3 profile.val.penUpZ) (roundTo 1 profile.val.feedPenUp))
      (roundTo 3 profile.val.penUpZ) = true :=
    decide_eq_true (near_roundTo profile.val.penUpZ)
  rw [runLines_renderStart, checkLine_penLine,
    checkCommand_of_feed .linear (parseWords_penLine ucd _ _) rfl rfl hpos hmax, settle]
  exact {
    position := by
      rw [tracked_checkMotion]
      rfl
    height := by
      rw [tracked_checkMotion]
      rfl
    drawSegments := by
      rw [tracked_checkMotion]
      rfl
    travelSegments := by
      rw [tracked_checkMotion]
      rfl
    hasDrawn := by
      rw [tracked_checkMotion]
      simp [MovesXY, penWords, Tracked.moved, tracked, beginMotion, setUp, initial, noteSendable]
    started := by
      have hstarted : ∀ lifts : Bool, lifts = true →
          (true && true && true && (false || (lifts && !(false || (!false &&
            (false || (true && !lifts)))) && !false && true && true && true))) = true := by
        decide
      rw [tracked_checkMotion]
      apply hstarted _ hlifts
    unmarked := by
      rw [marks_checkMotion]
      exact ⟨rfl, rfl⟩
    sendable := by
      rw [marks_checkMotion]
      intro k hk
      cases hk
      omega
    lifted := by
      rw [marks_checkMotion]
      exact ⟨10, by omega, if_pos hlifts⟩
    passes := by
      rw [noBlocker_checkMotion_iff]
      simp only [iff_true]
      exact ⟨noBlocker_nil, fun _ => .inl (near_roundTo _), fun hxy => by cases hxy⟩ }

end DrawingMachine
