import DrawingMachine.Gcode.Preview
import DrawingMachine.Gcode.Soundness

/-!
# The preview and the static check

Both read a text line by line and sort its motions in the plane into those that draw and those
that do not. On a text that the static check does not block they read the same words. They stay
together as long as every motion in the plane has its own `G0` or `G1`, and the two ways to tell
whether the pen is down agree: the static check looks at the last height of the text and allows
for a tolerance, the preview looks at the last height on a line with its own `G0` or `G1` and
does not.
-/

namespace DrawingMachine

open CheckState

/-! ### The words of a line -/

/-- The words of a line; a line that is not parsed has none. -/
def lineWords (ucd : UnicodeData) (rawLine : Text) : Words :=
  (parseWords ucd (commandOf rawLine)).words

/-- The line has its own `G0` or `G1`. -/
def OwnMotion (words : Words) : Prop := words .G = some 0 ∨ words .G = some 1

instance (words : Words) : Decidable (OwnMotion words) := inferInstanceAs (Decidable (_ ∨ _))

/-- A character that stands for an admissible letter is its character. -/
theorem char_of_ofChar? {c : Char} {letter : WordLetter} (h : WordLetter.ofChar? c = some letter) :
  c = letter.char
  := by
  unfold WordLetter.ofChar? at h
  split_ifs at h with hg hx hy hz hf <;> cases h <;> assumption

/-- Admissible letters with the same character are the same. -/
theorem char_injective : Function.Injective WordLetter.char := by
  intro a b h
  cases a <;> cases b <;> first | rfl | exact absurd h (by decide)

/-- A piece that is no issue is the same for the preview. -/
theorem readToken_eq {words : Char → Option ℚ} {parsed : ParsedWords} {piece : Token}
    (hsame : ∀ letter, words (WordLetter.char letter) = parsed.words letter)
    (h : (parsed.read piece).issues = []) (letter : WordLetter) :
  readToken words piece letter.char = (parsed.read piece).words letter
  := by
  cases piece with
  | gap c =>
      simp only [readToken, hsame, ParsedWords.read]
      split <;> rfl
  | word c value =>
      simp only [ParsedWords.read] at h ⊢
      cases hletter : WordLetter.ofChar? c.toUpper with
      | none => simp [hletter] at h
      | some letter' =>
          by_cases hnew : (parsed.words letter').isSome
          · simp [hletter, hnew] at h
          · simp only [hnew, readToken, char_of_ofChar? hletter, Function.update_apply,
              char_injective.eq_iff, hsame, Bool.false_eq_true, if_false]

/-- Where the words of a line have no issue, the preview reads the same words. -/
theorem previewWords_eq {ucd : UnicodeData} {line : Text} (h : (parseWords ucd line).issues = [])
    (letter : WordLetter) :
  previewWords ucd line letter.char = (parseWords ucd line).words letter
  := by
  suffices hread : ∀ (pieces : List Token) (parsed : ParsedWords) (words : Char → Option ℚ),
      (∀ letter, words (WordLetter.char letter) = parsed.words letter) →
      (pieces.foldl ParsedWords.read parsed).issues = [] →
      ∀ letter, pieces.foldl readToken words (WordLetter.char letter) =
        (pieces.foldl ParsedWords.read parsed).words letter from
    hread _ _ _ (fun _ => rfl) h letter
  intro pieces
  induction pieces with
  | nil =>
      intro parsed words hsame _ letter
      exact hsame letter
  | cons piece pieces ih =>
      intro parsed words hsame hissues
      have hpiece : (parsed.read piece).issues = [] := Interpreter.issues_of_foldl_read hissues
      exact ih _ _ (readToken_eq hsame hpiece) hissues

/-! ### A line for the static check -/

/-- The modal motion after a line. -/
def motionAfter (active : Option Motion) (words : Words) : Option Motion :=
  if words .G = some 0 then some .rapid
  else if words .G = some 1 then some .linear
  else active

/-- What a line that does not block the text does to the static check. -/
structure ReadLine (options : StaticCheckOptions) (words : Words) (t t' : Tracked) : Prop where
  code : ∀ g, words .G = some g → g ∈ ({0, 1, 21, 54, 90} : Set ℚ)
  motion : t'.activeMotion = motionAfter t.activeMotion words
  plane : t'.position = t.targetPlane words
  height : t'.z = t.targetZ words
  moving : MovesXY words = true → t'.activeMotion.isSome
  draws : t'.drawSegments = t.drawSegments ++
    if MovesXY words = true ∧ t'.activeMotion = some .linear ∧ IsDown options t.z ∧
      IsDown options (t.targetZ words) then [⟨t.position, t.targetPlane words⟩] else []
  travels : t'.travelSegments = t.travelSegments ++
    if MovesXY words = true ∧ ¬(t'.activeMotion = some .linear ∧ IsDown options t.z ∧
      IsDown options (t.targetZ words)) then [⟨t.position, t.targetPlane words⟩] else []

/-- The static check finds a segment for each motion in the plane. -/
theorem ReadLine.length_segments {options : StaticCheckOptions} {words : Words} {t t' : Tracked}
    (h : ReadLine options words t t') :
  t'.drawSegments.length + t'.travelSegments.length =
    t.drawSegments.length + t.travelSegments.length + if MovesXY words then 1 else 0
  := by
  rw [h.draws, h.travels, List.length_append, List.length_append]
  by_cases hmoves : MovesXY words = true
  · by_cases hdraws : t'.activeMotion = some .linear ∧ IsDown options t.z ∧
        IsDown options (t.targetZ words)
    · rw [if_pos ⟨hmoves, hdraws⟩, if_neg (fun hall => hall.2 hdraws), if_pos hmoves]
      simp only [List.length_cons, List.length_nil]
      omega
    · rw [if_neg (fun hall => hdraws hall.2), if_pos ⟨hmoves, hdraws⟩, if_pos hmoves]
      simp only [List.length_cons, List.length_nil]
      omega
  · simp [hmoves]

/-- A line without axis words leads nowhere. -/
theorem movesXY_of_noAxis {words : Words} (h : NoAxis words) : MovesXY words = false := by
  simp [MovesXY, h.1, h.2.1]

/-- The stage of the `G` word in the tracked part. -/
theorem tracked_checkG {lineNo : ℕ} {words : Words} {s s' : CheckState}
    (h : checkG lineNo words s = .ok s') :
  (∀ g, words .G = some g → g ∈ ({0, 1, 21, 54, 90} : Set ℚ)) ∧
    s'.tracked.activeMotion = motionAfter s.tracked.activeMotion words ∧
    s'.tracked.position = s.tracked.position ∧ s'.tracked.z = s.tracked.z ∧
    s'.tracked.drawSegments = s.tracked.drawSegments ∧
    s'.tracked.travelSegments = s.tracked.travelSegments
  := by
  rcases checkG_cases h with ⟨hg, rfl⟩ | ⟨hg, rfl⟩ | ⟨hg, rfl⟩ | ⟨hg, rfl⟩ | ⟨hg, rfl⟩ | ⟨hg, rfl⟩ <;>
    simp [motionAfter, hg, tracked, position]

/-- The stage of the `F` word keeps the tracked part. -/
theorem tracked_checkF {options : StaticCheckOptions} {lineNo : ℕ} {words : Words}
    {s s' : CheckState} (h : checkF options lineNo words s = .ok s') (hb : NoBlocker s'.checks) :
  s'.tracked = s.tracked
  := by
  rcases checkF_cases h hb with ⟨-, rfl⟩ | ⟨feed, -, -, -, rfl⟩
  · rfl
  · rfl

section Line

variable {ucd : UnicodeData} {options : StaticCheckOptions}

/-- What the stages of a motion do to the tracked part, list by list. -/
theorem readLine_checkMotion {words : Words} {lineNo : ℕ} {t : Tracked} {s : CheckState}
    {motion : Motion} (hcode : ∀ g, words .G = some g → g ∈ ({0, 1, 21, 54, 90} : Set ℚ))
    (hafter : s.tracked.activeMotion = motionAfter t.activeMotion words)
    (hmotion : s.tracked.activeMotion = some motion)
    (hplane : s.tracked.position = t.position) (hz : s.tracked.z = t.z)
    (hdraws : s.tracked.drawSegments = t.drawSegments)
    (htravels : s.tracked.travelSegments = t.travelSegments) :
  ReadLine options words t (s.checkMotion options lineNo words motion).tracked
  := by
  have htarget : s.tracked.targetPlane words = t.targetPlane words := by
    rw [Tracked.targetPlane, hplane]
    rfl
  have htargetZ : s.tracked.targetZ words = t.targetZ words := by
    rw [Tracked.targetZ, hz]
    rfl
  rw [tracked_checkMotion, hplane, hz, htarget, htargetZ]
  by_cases hmoves : MovesXY words = true
  · rw [if_pos hmoves, Tracked.addSegment]
    split
    · next hdown =>
        constructor
        · exact hcode
        · exact hafter
        · exact htarget
        · exact htargetZ
        · intro _
          simp [Tracked.moved, hmotion]
        · simp [Tracked.moved, hmotion, hdraws, hmoves, hdown]
        · simp [Tracked.moved, hmotion, htravels, hdown]
    · next hup =>
        constructor
        · exact hcode
        · exact hafter
        · exact htarget
        · exact htargetZ
        · intro _
          simp [Tracked.moved, hmotion]
        · simp only [Tracked.moved, hmotion, Option.some.injEq, hup, and_false, if_false, hdraws,
            List.append_nil]
        · simp only [Tracked.moved, hmotion, Option.some.injEq, hup, hmoves, not_false_eq_true,
            and_self, if_true, htravels]
  · rw [if_neg hmoves]
    constructor
    · exact hcode
    · exact hafter
    · exact htarget
    · exact htargetZ
    · intro h
      exact absurd h hmoves
    · simp [Tracked.moved, hmoves, hdraws]
    · simp [Tracked.moved, hmoves, htravels]

/-- A line that does not move the tool and has no axis words. -/
theorem readLine_of_noAxis {words : Words} {t t' : Tracked} (haxis : NoAxis words)
    (hcode : ∀ g, words .G = some g → g ∈ ({0, 1, 21, 54, 90} : Set ℚ))
    (hmotion : t'.activeMotion = motionAfter t.activeMotion words)
    (hplane : t'.position = t.position) (hz : t'.z = t.z)
    (hdraws : t'.drawSegments = t.drawSegments) (htravels : t'.travelSegments = t.travelSegments) :
  ReadLine options words t t'
  := by
  have hmoves := movesXY_of_noAxis haxis
  constructor
  · exact hcode
  · exact hmotion
  · simp [Tracked.targetPlane, haxis.1, haxis.2.1, hplane]
  · simp [Tracked.targetZ, haxis.2.2, hz]
  · simp [hmoves]
  · simp [hmoves, hdraws]
  · simp [hmoves, htravels]

/-- What a command that does not block the text does to the static check. -/
theorem readLine_checkCommand {s : CheckState} {lineNo : ℕ} {line : Text}
    (hb : NoBlocker (settle (s.checkCommand ucd options lineNo line)).checks) :
  ReadLine options (parseWords ucd line).words s.tracked
    (settle (s.checkCommand ucd options lineNo line)).tracked
  := by
  have hissues : checkIssues lineNo (parseWords ucd line).issues (s.noteSendable lineNo)
      = .ok (s.noteSendable lineNo) :=
    checkIssues_eq_ok_iff.mpr ⟨(noBlocker_of_checkCommand hb).2, rfl⟩
  rw [← tracked_noteSendable lineNo s]
  unfold checkCommand at hb ⊢
  simp only [hissues, bind, Except.bind] at hb ⊢
  cases hg : checkG lineNo (parseWords ucd line).words (s.noteSendable lineNo) with
  | error e =>
      rw [hg] at hb
      exact absurd hb (blocked_of_checkG_error hg)
  | ok s₂ =>
      simp only [hg] at hb ⊢
      obtain ⟨hcode, hafter, hplane, hz, hdraws, htravels⟩ := tracked_checkG hg
      cases hf : checkF options lineNo (parseWords ucd line).words s₂ with
      | error e =>
          rw [hf] at hb
          exact absurd hb (blocked_of_checkF_error hf)
      | ok s₃ =>
          simp only [hf] at hb ⊢
          cases hm : checkActiveMotion lineNo (parseWords ucd line).words s₃ with
          | error e =>
              simp only [hm] at hb ⊢
              obtain ⟨-, hnone, rfl⟩ := checkActiveMotion_error hm hb
              have hfeed := tracked_checkF hf hb
              rw [← hfeed] at hafter hplane hz hdraws htravels
              exact readLine_of_noAxis hnone hcode hafter hplane hz hdraws htravels
          | ok found =>
              obtain ⟨motion, s₄⟩ := found
              obtain ⟨hmotion, rfl⟩ := checkActiveMotion_eq_ok_iff.mp hm
              simp only [hm] at hb ⊢
              have hfeed := tracked_checkF hf (noBlocker_checkMotion_iff.mp hb).1
              rw [← hfeed] at hafter hplane hz hdraws htravels
              exact readLine_checkMotion hcode hafter hmotion hplane hz hdraws htravels

/-- What a line that does not block the text does to the static check. -/
theorem readLine_checkLine {s : CheckState} {rawLine : Text} {lineNo : ℕ}
    (hb : NoBlocker (s.checkLine ucd options (rawLine, lineNo)).checks) :
  ReadLine options (lineWords ucd rawLine) s.tracked
    (s.checkLine ucd options (rawLine, lineNo)).tracked
  := by
  by_cases hcommand : commandOf rawLine = []
  · have hskip : parsedLine (rawLine, lineNo) = none := by simp [parsedLine, hcommand]
    have hwords : lineWords ucd rawLine = Words.empty := by
      rw [lineWords, hcommand]
      rfl
    rw [hwords]
    simp only [checkLine, hskip, tracked_noteEndMarker]
    apply readLine_of_noAxis
    · exact ⟨rfl, rfl, rfl⟩
    · intro g hg
      cases hg
    · rfl
    · rfl
    · rfl
    · rfl
    · rfl
  · have hparse : parsedLine (rawLine, lineNo) = some (lineNo, commandOf rawLine) := by
      simp [parsedLine, hcommand]
    simp only [checkLine, hparse] at hb ⊢
    rw [← tracked_noteEndMarker lineNo rawLine s]
    generalize s.noteEndMarker lineNo rawLine = s at hb ⊢
    exact readLine_checkCommand hb

/-- A line that does not block the text has no issue. -/
theorem issues_of_checkLine {s : CheckState} {rawLine : Text} {lineNo : ℕ}
    (hb : NoBlocker (s.checkLine ucd options (rawLine, lineNo)).checks) :
  (parseWords ucd (commandOf rawLine)).issues = []
  := by
  by_cases hcommand : commandOf rawLine = []
  · rw [hcommand]
    rfl
  · have hparse : parsedLine (rawLine, lineNo) = some (lineNo, commandOf rawLine) := by
      simp [parsedLine, hcommand]
    simp only [checkLine, hparse] at hb
    exact (noBlocker_of_checkCommand hb).2

end Line

/-! ### A line for the preview -/

/-- What the preview does with a line. -/
structure PreviewsLine (profile : MachineBuildProfile) (words : Words) (p p' : PreviewState) :
    Prop where
  plane : (⟨p'.x, p'.y⟩ : Point) =
    if OwnMotion words then ⟨(words .X).getD p.x, (words .Y).getD p.y⟩ else ⟨p.x, p.y⟩
  height : p'.z = if OwnMotion words then (words .Z).getD p.z else p.z
  draws : p'.drawSegments = p.drawSegments ++
    if MovesXY words = true ∧ words .G = some 1 ∧ p.z ≤ profile.val.penDownZ ∧
      (words .Z).getD p.z ≤ profile.val.penDownZ then
      [⟨⟨p.x, p.y⟩, ⟨(words .X).getD p.x, (words .Y).getD p.y⟩⟩] else []
  travels : p'.travelSegments = p.travelSegments ++
    if MovesXY words = true ∧ OwnMotion words ∧
      ¬(words .G = some 1 ∧ p.z ≤ profile.val.penDownZ ∧
        (words .Z).getD p.z ≤ profile.val.penDownZ) then
      [⟨⟨p.x, p.y⟩, ⟨(words .X).getD p.x, (words .Y).getD p.y⟩⟩] else []

/-- The preview finds a segment for each motion in the plane with its own `G0` or `G1`. -/
theorem PreviewsLine.length_segments {profile : MachineBuildProfile} {words : Words}
    {p p' : PreviewState} (h : PreviewsLine profile words p p') :
  p'.drawSegments.length + p'.travelSegments.length =
    p.drawSegments.length + p.travelSegments.length +
      if MovesXY words ∧ OwnMotion words then 1 else 0
  := by
  rw [h.draws, h.travels, List.length_append, List.length_append]
  by_cases hmoves : MovesXY words = true ∧ OwnMotion words
  · by_cases hdraws : words .G = some 1 ∧ p.z ≤ profile.val.penDownZ ∧
        (words .Z).getD p.z ≤ profile.val.penDownZ
    · rw [if_pos ⟨hmoves.1, hdraws⟩, if_neg (fun hall => hall.2.2 hdraws), if_pos hmoves]
      simp only [List.length_cons, List.length_nil]
      omega
    · rw [if_neg (fun hall => hdraws hall.2), if_pos ⟨hmoves.1, hmoves.2, hdraws⟩, if_pos hmoves]
      simp only [List.length_cons, List.length_nil]
      omega
  · have hdraws : ¬(MovesXY words = true ∧ words .G = some 1 ∧ p.z ≤ profile.val.penDownZ ∧
        (words .Z).getD p.z ≤ profile.val.penDownZ) := fun hall => hmoves ⟨hall.1, .inr hall.2.1⟩
    rw [if_neg hdraws, if_neg (fun hall => hmoves ⟨hall.1, hall.2.1⟩), if_neg hmoves]
    simp

section Preview

variable {ucd : UnicodeData} {profile : MachineBuildProfile}

/-- A line without its own motion is not looked at. -/
theorem previewsLine_of_not_ownMotion {words : Words} (p : PreviewState)
    (h : ¬OwnMotion words) :
  PreviewsLine profile words p p
  := by
  have hone : words .G ≠ some 1 := fun hg => h (.inr hg)
  constructor
  · rw [if_neg h]
  · rw [if_neg h]
  · simp [hone]
  · simp [h]

/-- A line with its own motion is obeyed. -/
theorem previewsLine_obey {words : Words} (p : PreviewState) {read : Char → Option ℚ}
    (hread : ∀ letter, read (WordLetter.char letter) = words letter) (h : OwnMotion words)
    {command : ℤ} (hcommand : command = 1 ↔ words .G = some 1) :
  PreviewsLine profile words p (p.obey profile read command)
  := by
  have hx : read 'X' = words .X := hread .X
  have hy : read 'Y' = words .Y := hread .Y
  have hz : read 'Z' = words .Z := hread .Z
  have hmoves : ((words .X).isNone && (words .Y).isNone) = !MovesXY words := by
    unfold MovesXY
    cases words .X <;> cases words .Y <;> rfl
  have hdown : (p.z ≤ profile.val.penDownZ ∧ (words .Z).getD p.z ≤ profile.val.penDownZ ∧
      words .G = some 1) ↔ (words .G = some 1 ∧ p.z ≤ profile.val.penDownZ ∧
        (words .Z).getD p.z ≤ profile.val.penDownZ) := by
    tauto
  unfold PreviewState.obey
  simp only [hx, hy, hz, hmoves, hcommand, hdown]
  cases hm : MovesXY words with
  | false => constructor <;> simp [h, hm]
  | true =>
      by_cases hdown : words .G = some 1 ∧ p.z ≤ profile.val.penDownZ ∧
          (words .Z).getD p.z ≤ profile.val.penDownZ
      · constructor <;> simp [h, hm, hdown]
      · rw [if_neg (by simp), if_neg hdown]
        constructor
        · rw [if_pos h]
        · rw [if_pos h]
        · rw [if_neg (fun hall => hdown hall.2), List.append_nil]
        · rw [if_pos ⟨hm, h, hdown⟩]

variable (profile) in
/-- What the preview does with a line whose words have no issue. -/
theorem previewsLine_readLine {rawLine : Text} (p : PreviewState)
    (hissues : (parseWords ucd (commandOf rawLine)).issues = [])
    (hcode : ∀ g, lineWords ucd rawLine .G = some g → g ∈ ({0, 1, 21, 54, 90} : Set ℚ)) :
  PreviewsLine profile (lineWords ucd rawLine) p (p.readLine ucd profile rawLine)
  := by
  have hread := previewWords_eq hissues
  unfold PreviewState.readLine
  dsimp only
  split
  · next hblank =>
      apply previewsLine_of_not_ownMotion
      rw [lineWords, hblank]
      rintro (h | h) <;> cases h
  · next hcommand =>
      have hg : previewWords ucd (commandOf rawLine) 'G' = lineWords ucd rawLine .G := hread .G
      rw [hg]
      cases hword : lineWords ucd rawLine .G with
      | none =>
          apply previewsLine_of_not_ownMotion
          rintro (h | h) <;> simp [hword] at h
      | some g =>
          have hown : OwnMotion (lineWords ucd rawLine) ↔ g = 0 ∨ g = 1 := by
            simp [OwnMotion, hword]
          have hg := hcode g hword
          simp only [Set.mem_insert_iff, Set.mem_singleton_iff] at hg
          have hwhole : (Int.tdiv g.num g.den = 0 ∨ Int.tdiv g.num g.den = 1 ↔ g = 0 ∨ g = 1) ∧
              (Int.tdiv g.num g.den = 1 ↔ g = 1) := by
            rcases hg with rfl | rfl | rfl | rfl | rfl <;> norm_num
          dsimp only
          split
          · next h =>
              apply previewsLine_obey p hread (hown.mpr (hwhole.1.mp h))
              have hone : lineWords ucd rawLine .G = some 1 ↔ g = 1 := by simp [hword]
              exact hwhole.2.trans hone.symm
          · next h => exact previewsLine_of_not_ownMotion p fun h' => h (hwhole.1.mpr (hown.mp h'))

end Preview

/-! ### Texts on which the two agree -/

/-- The height of the pen after lines, by their last word for it. -/
def heightAfter (z : ℚ) (lines : List Words) : ℚ :=
  lines.foldl (fun z words => (words .Z).getD z) z

/-- The height of the pen after lines, by the last word for it on a line with its own motion. -/
def ownHeightAfter (z : ℚ) (lines : List Words) : ℚ :=
  lines.foldl (fun z words => if OwnMotion words then (words .Z).getD z else z) z

/-- The pen is at most at the given height, from before a line until after it. -/
def StaysBelow (limit z : ℚ) (words : Words) : Prop := z ≤ limit ∧ (words .Z).getD z ≤ limit

/-- A line that the preview and the static check read alike: a motion in the plane has its own
`G0` or `G1`, and with `G1` the height and the height of the lines with their own motion agree
whether the pen is down, the first one up to the tolerance. -/
structure ReadAlike (profile : MachineBuildProfile) (z ownZ : ℚ) (words : Words) : Prop where
  own : MovesXY words = true → OwnMotion words
  pen : MovesXY words = true → words .G = some 1 →
    (StaysBelow (profile.val.penDownZ + 1 / 100) z words ↔
      StaysBelow profile.val.penDownZ ownZ words)

/-- All lines are read alike, when the heights before them are given. -/
def LinesReadAlike (profile : MachineBuildProfile) (z ownZ : ℚ) (lines : List Words) : Prop :=
  ∀ before words after, lines = before ++ words :: after →
    ReadAlike profile (heightAfter z before) (ownHeightAfter ownZ before) words

/-- A text is read alike by the preview and the static check. -/
def TextReadAlike (ucd : UnicodeData) (profile : MachineBuildProfile) (gcode : Text) : Prop :=
  LinesReadAlike profile profile.val.penUpZ profile.val.penUpZ
    ((Text.splitlines gcode).map (lineWords ucd))

/-- Lines are read alike when the first one is, and the others with the heights after it. -/
theorem linesReadAlike_cons {profile : MachineBuildProfile} {z ownZ : ℚ} {words : Words}
    {lines : List Words} :
  LinesReadAlike profile z ownZ (words :: lines) ↔
    ReadAlike profile z ownZ words ∧
      LinesReadAlike profile ((words .Z).getD z)
        (if OwnMotion words then (words .Z).getD ownZ else ownZ) lines
  := by
  constructor
  · intro h
    constructor
    · exact h [] words lines rfl
    · rintro before words' after rfl
      exact h (words :: before) words' after rfl
  · rintro ⟨hfirst, hrest⟩ before words' after heq
    cases before with
    | nil =>
        cases heq
        exact hfirst
    | cons first before =>
        cases heq
        exact hrest before words' after rfl

/-- The preview shows the segments that the static check has found. -/
def SameSegments (p : PreviewState) (t : Tracked) : Prop :=
  p.drawSegments = t.drawSegments ∧ p.travelSegments = t.travelSegments

section Agreement

variable {ucd : UnicodeData} {profile : MachineBuildProfile} {inputName : String}

/-- Two ways to sort a motion sort it alike: one draws with its own `G1` below a height, and does
not see a motion without its own word; the other draws with the modal `G1` below another. -/
theorem sorted_alike_iff {moves own one linear below below' : Prop} (hone : one → own)
    (hlinear : own → (linear ↔ one)) :
  ((moves ∧ one ∧ below' ↔ moves ∧ linear ∧ below) ∧
      (moves ∧ own ∧ ¬(one ∧ below') ↔ moves ∧ ¬(linear ∧ below))) ↔
    (moves → own) ∧ (moves → one → (below ↔ below'))
  := by
  by_cases hmoves : moves
  · by_cases hown : own
    · have hmodal := hlinear hown
      by_cases hone' : one <;> simp [hmoves, hown, hone', hmodal, iff_comm, not_iff_not]
    · -- the second way sorts a motion that the first one does not see
      have hnone : ¬one := fun h => hown (hone h)
      by_cases hdraws : linear ∧ below <;> simp [hmoves, hown, hnone, hdraws]
  · simp [hmoves]

/-- A line keeps the segments the same exactly when it is read alike. -/
theorem sameSegments_iff {words : Words} {p p' : PreviewState} {t t' : Tracked}
    (hsame : SameSegments p t) (hplane : (⟨p.x, p.y⟩ : Point) = t.position)
    (hp : PreviewsLine profile words p p')
    (ht : ReadLine (candidateOptions profile inputName) words t t') :
  SameSegments p' t' ↔ ReadAlike profile t.z p.z words
  := by
  have hsegment : (⟨⟨p.x, p.y⟩, ⟨(words .X).getD p.x, (words .Y).getD p.y⟩⟩ : Segment) =
      ⟨t.position, t.targetPlane words⟩ := by
    rw [Tracked.targetPlane, ← hplane]
  have honce : ∀ (a b : Prop) [Decidable a] [Decidable b] (segment : Segment),
      ((if a then [segment] else []) = if b then [segment] else []) ↔ (a ↔ b) := by
    intro a b _ _ segment
    split_ifs <;> simp_all
  have hmotion : OwnMotion words → (t'.activeMotion = some .linear ↔ words .G = some 1) := by
    rintro (h | h) <;> simp [ht.motion, motionAfter, h]
  have hdown : IsDown (candidateOptions profile inputName) t.z ∧
      IsDown (candidateOptions profile inputName) (t.targetZ words) ↔
      StaysBelow (profile.val.penDownZ + 1 / 100) t.z words := Iff.rfl
  have hdown' : p.z ≤ profile.val.penDownZ ∧ (words .Z).getD p.z ≤ profile.val.penDownZ ↔
      StaysBelow profile.val.penDownZ p.z words := Iff.rfl
  have hone : words .G = some 1 → OwnMotion words := .inr
  have halike : ReadAlike profile t.z p.z words ↔ (MovesXY words = true → OwnMotion words) ∧
      (MovesXY words = true → words .G = some 1 →
        (StaysBelow (profile.val.penDownZ + 1 / 100) t.z words ↔
          StaysBelow profile.val.penDownZ p.z words)) :=
    ⟨fun h => ⟨h.own, h.pen⟩, fun h => ⟨h.1, h.2⟩⟩
  rw [SameSegments, hp.draws, hp.travels, ht.draws, ht.travels, hsame.1, hsame.2,
    List.append_cancel_left_eq, List.append_cancel_left_eq, hsegment, honce, honce, hdown, hdown',
    halike]
  exact sorted_alike_iff hone hmotion

/-- After a line that is read alike both are at the same place. -/
theorem plane_eq {words : Words} {p p' : PreviewState} {t t' : Tracked}
    (hplane : (⟨p.x, p.y⟩ : Point) = t.position) (hp : PreviewsLine profile words p p')
    (ht : ReadLine (candidateOptions profile inputName) words t t')
    (hown : MovesXY words = true → OwnMotion words) :
  (⟨p'.x, p'.y⟩ : Point) = t'.position
  := by
  rw [hp.plane, ht.plane, Tracked.targetPlane, ← hplane]
  split
  · rfl
  · next h =>
      have hmoves : MovesXY words = false := Bool.eq_false_iff.mpr fun hm => h (hown hm)
      simp only [MovesXY, Bool.or_eq_false_iff, Option.isSome_eq_false_iff,
        Option.isNone_iff_eq_none] at hmoves
      simp [hmoves.1, hmoves.2]

/-- Both read lines alike exactly when they have found the same segments after each of them. -/
theorem linesReadAlike_iff {lines : List Text} {lineNo : ℕ} {p : PreviewState} {s : CheckState}
    (hb : NoBlocker ((lines.zipIdx lineNo).foldl
      (checkLine ucd (candidateOptions profile inputName)) s).checks)
    (hsame : SameSegments p s.tracked) (hplane : (⟨p.x, p.y⟩ : Point) = s.tracked.position) :
  (∀ k, SameSegments ((lines.take k).foldl (PreviewState.readLine ucd profile) p)
      (((lines.take k).zipIdx lineNo).foldl
        (checkLine ucd (candidateOptions profile inputName)) s).tracked) ↔
    LinesReadAlike profile s.tracked.z p.z (lines.map (lineWords ucd))
  := by
  induction lines generalizing lineNo p s with
  | nil =>
      constructor
      · rintro - before words after heq
        simp at heq
      · intro _ k
        simpa using hsame
  | cons line lines ih =>
      simp only [List.zipIdx_cons, List.foldl_cons] at hb
      have hread := readLine_checkLine (noBlocker_of_foldl hb)
      have hissues := issues_of_checkLine (noBlocker_of_foldl hb)
      have hpreview := previewsLine_readLine profile p hissues hread.code
      have hfirst := sameSegments_iff hsame hplane hpreview hread
      have hheight : (lineWords ucd line .Z).getD s.tracked.z = _ := hread.height.symm
      rw [List.map_cons, linesReadAlike_cons, ← hfirst, hheight, ← hpreview.height]
      constructor
      · intro h
        have hnext := h 1
        use hnext
        have hplane' := plane_eq hplane hpreview hread (hfirst.mp hnext).own
        apply (ih hb hnext hplane').mp
        intro k
        exact h (k + 1)
      · rintro ⟨hnext, hrest⟩ k
        have hplane' := plane_eq hplane hpreview hread (hfirst.mp hnext).own
        cases k with
        | zero => exact hsame
        | succ k => exact (ih hb hnext hplane').mpr hrest k

/-- The static check has found one segment more for each motion in the plane without its own
`G0` or `G1`. -/
theorem length_segments {lines : List Text} {lineNo : ℕ} {p : PreviewState} {s : CheckState}
    (hb : NoBlocker ((lines.zipIdx lineNo).foldl
      (checkLine ucd (candidateOptions profile inputName)) s).checks) :
  let p' := lines.foldl (PreviewState.readLine ucd profile) p
  let t' := ((lines.zipIdx lineNo).foldl
    (checkLine ucd (candidateOptions profile inputName)) s).tracked
  t'.drawSegments.length + t'.travelSegments.length +
      (p.drawSegments.length + p.travelSegments.length) =
    p'.drawSegments.length + p'.travelSegments.length +
      (s.tracked.drawSegments.length + s.tracked.travelSegments.length) +
      (lines.map (lineWords ucd)).countP fun words => MovesXY words && !decide (OwnMotion words)
  := by
  induction lines generalizing lineNo p s with
  | nil =>
      simp only [List.zipIdx_nil, List.foldl_nil, List.map_nil, List.countP_nil]
      omega
  | cons line lines ih =>
      simp only [List.zipIdx_cons, List.foldl_cons] at hb ⊢
      have hread := readLine_checkLine (noBlocker_of_foldl hb)
      have hissues := issues_of_checkLine (noBlocker_of_foldl hb)
      have hpreview := previewsLine_readLine profile p hissues hread.code
      have hrest := ih (p := p.readLine ucd profile line) hb
      have hstatic := hread.length_segments
      have hshown := hpreview.length_segments
      have hmissed : (if (MovesXY (lineWords ucd line) &&
            !decide (OwnMotion (lineWords ucd line))) = true then 1 else 0) +
          (if MovesXY (lineWords ucd line) = true ∧ OwnMotion (lineWords ucd line) then 1 else 0) =
          if MovesXY (lineWords ucd line) = true then 1 else 0 := by
        by_cases hmoves : MovesXY (lineWords ucd line) = true <;>
          by_cases hown : OwnMotion (lineWords ucd line) <;> simp [hmoves, hown]
      simp only [List.map_cons, List.countP_cons] at hrest ⊢
      omega

end Agreement

/-- The static check of the first lines of a text. -/
def checkedLines (ucd : UnicodeData) (options : StaticCheckOptions) (lines : List Text) :
    CheckState :=
  (lines.zipIdx 1).foldl (checkLine ucd options) (initial options)

/-- On a text that the static check does not block, the preview shows after each line the
segments that the check has found, exactly when the text is read alike by both; then it does so
for the whole text. It never does when a motion in the plane has no `G0` or `G1` of its own. -/
theorem preview_agrees_iff (ucd : UnicodeData) (sha256 : List UInt8 → String) (gcode : Text)
    (profile : MachineBuildProfile) (inputName : String)
    (h : (analyzeGcode ucd sha256 gcode (candidateOptions profile inputName)).gate ≠ .blocked) :
  let lines := Text.splitlines gcode
  let options := candidateOptions profile inputName
  let whole := SameSegments (PreviewState.readLines ucd profile lines)
    (checkLines ucd options gcode).tracked
  ((∀ k, SameSegments (PreviewState.readLines ucd profile (lines.take k))
      (checkedLines ucd options (lines.take k)).tracked) ↔ TextReadAlike ucd profile gcode) ∧
    (TextReadAlike ucd profile gcode → whole) ∧
    (whole → ∀ line ∈ lines, MovesXY (lineWords ucd line) = true → OwnMotion (lineWords ucd line))
  := by
  intro lines options whole
  have hlines := (analyzeGcode_gate_ne_blocked_iff.mp h).1
  have hsame : SameSegments (PreviewState.initial profile) (initial options).tracked := ⟨rfl, rfl⟩
  have hiff : (∀ k, SameSegments (PreviewState.readLines ucd profile (lines.take k))
      (checkedLines ucd options (lines.take k)).tracked) ↔ TextReadAlike ucd profile gcode :=
    linesReadAlike_iff hlines hsame rfl
  refine ⟨hiff, ?_, ?_⟩
  · intro halike
    have hall := hiff.mpr halike lines.length
    rwa [List.take_length] at hall
  · intro hwhole line hline hmoves
    have hlength := length_segments (p := PreviewState.initial profile) hlines
    have hnone : (lines.map (lineWords ucd)).countP
        (fun words => MovesXY words && !decide (OwnMotion words)) = 0 := by
      have hdraws := congrArg List.length hwhole.1
      have htravels := congrArg List.length hwhole.2
      have hstart := congrArg List.length hsame.1
      have hstart' := congrArg List.length hsame.2
      simp only [PreviewState.readLines, checkLines, Text.numberedLines, lines, options]
        at hdraws htravels hstart hstart' ⊢
      omega
    have hown := List.countP_eq_zero.mp hnone _ (List.mem_map_of_mem hline)
    simpa [hmoves] using hown

/-- A profile whose lower height has four decimals. -/
def fineProfile : MachineBuildProfile :=
  ⟨{ MachineBuildProfile.Fields.stage1Defaults with penDownZ := 6 / 10000 }, by decide +kernel⟩

/-- A text that draws one line, with the lower height as it is written. -/
def fineLine : Text :=
  "G21\nG90\nG54\nG1 Z3.5 F400\nG0 X96 Y96 F1200\nG1 Z0.001 F100\nG1 X100 Y96 F900\nG1 Z3.5\n; End\n".toList

theorem preview_agrees_oneLine :
  (analyzeGcode .ascii (fun _ => "") oneLine
      (candidateOptions .stage1Defaults "drawing.gcode")).gate ≠ .blocked ∧
    ((∀ k, SameSegments
        (PreviewState.readLines .ascii .stage1Defaults ((Text.splitlines oneLine).take k))
        (checkedLines .ascii (candidateOptions .stage1Defaults "drawing.gcode")
          ((Text.splitlines oneLine).take k)).tracked) ↔
      TextReadAlike .ascii .stage1Defaults oneLine)
  := by
  have hgate : (analyzeGcode .ascii (fun _ => "") oneLine
      (candidateOptions .stage1Defaults "drawing.gcode")).gate ≠ .blocked := by
    rw [analyzeGcode_gate_ne_blocked_iff]
    decide +kernel
  exact ⟨hgate, (preview_agrees_iff .ascii (fun _ => "") oneLine .stage1Defaults "drawing.gcode"
    hgate).1⟩

/-- The preview shows a line that is drawn as a travel. -/
theorem preview_shows_travel :
  ¬∀ (ucd : UnicodeData) (sha256 : List UInt8 → String) (gcode : Text)
      (profile : MachineBuildProfile) (inputName : String),
    (analyzeGcode ucd sha256 gcode (candidateOptions profile inputName)).gate ≠ .blocked →
    let s := checkLines ucd (candidateOptions profile inputName) gcode
    (parseGcode ucd gcode profile).drawSegments = s.drawSegments ∧
      (parseGcode ucd gcode profile).travelSegments = s.travelSegments
  := by
  intro hagrees
  have hgate : (analyzeGcode .ascii (fun _ => "") fineLine
      (candidateOptions fineProfile "drawing.gcode")).gate ≠ .blocked := by
    rw [analyzeGcode_gate_ne_blocked_iff]
    decide +kernel
  have hdraws := (hagrees .ascii (fun _ => "") fineLine fineProfile "drawing.gcode" hgate).1
  revert hdraws
  decide +kernel

end DrawingMachine
