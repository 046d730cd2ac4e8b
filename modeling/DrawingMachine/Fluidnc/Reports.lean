import DrawingMachine.Base.PyJson
import DrawingMachine.Fluidnc.Gates
import DrawingMachine.Gcode.Rendering

/-!
# Reports that are written and read back

A position that was observed is written again as the controller reports it, with three
decimals, and read back. Where the arithmetic of the platform is exact on decimal numerals,
positions with at most three decimals are read back as they were.
-/

namespace DrawingMachine

/-! ### Exact decimals -/

/-- Arithmetic that is exact on decimal numerals. -/
structure ExactDecimals (float : FloatArithmetic) : Prop where
  sub : ∀ a b, float.sub a b = some (a - b)
  round3 : ∀ q, float.round3 q = roundTo 3 q
  parse : ∀ q, roundTo 3 q = q → float.parse (fixedText 3 q) = some q

/-- The arithmetic of the samples is exact. -/
theorem exactDecimals_exact : ExactDecimals FloatArithmetic.exact := by
  constructor
  · intro a b
    rfl
  · intro q
    rfl
  · intro q hq
    have hrest : ∀ c ∈ ([] : Text).head?, UnicodeData.ascii.isDigit c = false := by simp
    have hread := numberAt_fixedText UnicodeData.ascii (k := 3) (by omega) q hrest
    rw [List.append_nil] at hread
    simp only [FloatArithmetic.exact, hread, if_true, hq]

/-- A number that is a whole number of thousandths, and at most as large as `bound`. -/
def IsMilli (bound q : ℚ) : Prop := (∃ n : ℤ, q = n / 1000) ∧ |q| < bound

/-- A position whose numbers are whole numbers of thousandths. -/
def Vector3.IsMilli (bound : ℚ) (v : Vector3) : Prop :=
  DrawingMachine.IsMilli bound v.x ∧ DrawingMachine.IsMilli bound v.y ∧
    DrawingMachine.IsMilli bound v.z

/-- Whole numbers of thousandths are those that rounding keeps. -/
theorem roundTo_eq_iff {q : ℚ} : roundTo 3 q = q ↔ ∃ n : ℤ, q = n / 1000 := by
  constructor
  · intro h
    use roundHalfEven (q * 10 ^ 3)
    have hround : roundTo 3 q = roundHalfEven (q * 10 ^ 3) / 10 ^ 3 := rfl
    rw [h] at hround
    exact hround.trans (by norm_num)
  · rintro ⟨n, rfl⟩
    have hwhole : (n / 1000 : ℚ) * 10 ^ 3 = n := by
      norm_num
    rw [roundTo, hwhole, roundHalfEven_intCast]
    norm_num

/-- The difference of whole numbers of thousandths is one. -/
theorem IsMilli.sub {bound bound' a b : ℚ} (ha : IsMilli bound a) (hb : IsMilli bound' b) :
  IsMilli (bound + bound') (a - b)
  := by
  obtain ⟨⟨m, rfl⟩, ha⟩ := ha
  obtain ⟨⟨n, rfl⟩, hb⟩ := hb
  constructor
  · use m - n
    push_cast
    ring
  · exact (abs_sub _ _).trans_lt (add_lt_add ha hb)

/-! ### Numerals and positions -/

/-- Three numbers with three decimals, separated by commas. -/
def vectorText (v : Vector3) : Text :=
  fixedText 3 v.x ++ ',' :: (fixedText 3 v.y ++ ',' :: fixedText 3 v.z)

/-- The characters of a position are those of numerals and commas. -/
theorem toNat_of_mem_vectorText {v : Vector3} {c : Char} (h : c ∈ vectorText v) :
  44 ≤ c.toNat ∧ c.toNat ≤ 57
  := by
  simp only [vectorText, List.mem_append, List.mem_cons] at h
  rcases h with h | rfl | h | rfl | h
  · have hc := toNat_of_mem_fixedText h
    omega
  · decide
  · have hc := toNat_of_mem_fixedText h
    omega
  · decide
  · have hc := toNat_of_mem_fixedText h
    omega

/-- A character beyond the digits is not in a position. -/
theorem not_mem_vectorText {v : Vector3} {c : Char} (h : 57 < c.toNat) : c ∉ vectorText v := by
  intro hc
  have hrange := toNat_of_mem_vectorText hc
  omega

/-- A comma is not in a numeral. -/
theorem comma_not_mem_fixedText (q : ℚ) : ',' ∉ fixedText 3 q := by
  intro hc
  have hrange := toNat_of_mem_fixedText hc
  exact absurd hrange (by decide)

/-- There is no white space around a numeral. -/
theorem strip_fixedText (q : ℚ) : Text.strip (fixedText 3 q) = fixedText 3 q := by
  have hspace : ∀ c ∈ fixedText 3 q, Text.isSpace c = false := by
    intro c hc
    have hrange := toNat_of_mem_fixedText hc
    simp only [Text.isSpace]
    simp
    omega
  apply Text.strip_eq_self
  · intro c hc
    exact hspace c (List.mem_of_mem_head? hc)
  · intro c hc
    exact hspace c (List.mem_of_mem_getLast? hc)

/-- The numeral of a number that is not too large is not too long. -/
theorem length_fixedText_le {bound : ℕ} {q : ℚ} (hpos : 0 < bound) (h : IsMilli (10 ^ bound) q) :
  (fixedText 3 q).length ≤ bound + 5
  := by
  obtain ⟨hmilli, hlt⟩ := h
  have hround : roundTo 3 |q| = |q| := by
    rcases abs_cases q with ⟨habs, -⟩ | ⟨habs, -⟩
    · rw [habs, roundTo_eq_iff.mpr hmilli]
    · rw [habs, roundTo_neg, roundTo_eq_iff.mpr hmilli]
  have hvalue := natCast_toNat_roundHalfEven 3 q
  have hdigits : (Nat.toDigits 10
      ((roundHalfEven (|q| * 10 ^ 3)).toNat / 10 ^ 3)).length ≤ bound := by
    rw [Nat.length_toDigits_le_iff (by omega) hpos]
    apply Nat.div_lt_of_lt_mul
    rw [hround, div_eq_iff (by norm_num)] at hvalue
    have hscaled : (((roundHalfEven (|q| * 10 ^ 3)).toNat : ℕ) : ℚ) < 10 ^ 3 * 10 ^ bound := by
      rw [hvalue]
      linarith
    exact_mod_cast hscaled
  simp only [fixedText, List.length_append, List.length_cons, length_lastDigits]
  split
  · simp only [List.length_cons, List.length_nil]
    omega
  · simp only [List.length_nil]
    omega

variable {p : Platform}

/-- A position that is written is read back. -/
theorem parseVector_vectorText (hexact : ExactDecimals p.float) {bound : ℚ} {v : Vector3}
    (hv : v.IsMilli bound) (field : String) :
  parseVector p (vectorText v) field = .ok v
  := by
  have hsplit : splitAt ',' (vectorText v) = [fixedText 3 v.x, fixedText 3 v.y, fixedText 3 v.z] := by
    rw [splitAt, vectorText, List.splitOn_append_cons_self_of_not_mem (comma_not_mem_fixedText _),
      List.splitOn_append_cons_self_of_not_mem (comma_not_mem_fixedText _),
      List.splitOn_eq_singleton (comma_not_mem_fixedText _)]
  have hparse : ∀ q, IsMilli bound q →
      p.float.parse (Text.strip (fixedText 3 q)) = some q := by
    intro q hq
    rw [strip_fixedText, hexact.parse q (roundTo_eq_iff.mpr hq.1)]
  simp only [parseVector, hsplit, List.map_cons, List.map_nil, hparse _ hv.1, hparse _ hv.2.1,
    hparse _ hv.2.2]

/-! ### Lines -/

/-- A text of printable ASCII characters. -/
def IsPrintable (t : Text) : Prop := ∀ c ∈ t, 0x20 ≤ c.toNat ∧ c.toNat < 0x7F

instance (t : Text) : Decidable (IsPrintable t) := inferInstanceAs (Decidable (∀ c ∈ _, _))

/-- Printable texts can be put together. -/
theorem IsPrintable.append {s t : Text} (hs : IsPrintable s) (ht : IsPrintable t) :
  IsPrintable (s ++ t)
  := by
  intro c hc
  rcases List.mem_append.mp hc with hc | hc
  · exact hs c hc
  · exact ht c hc

/-- A position is printable. -/
theorem isPrintable_vectorText (v : Vector3) : IsPrintable (vectorText v) := by
  intro c hc
  have hrange := toNat_of_mem_vectorText hc
  omega

/-- A printable text has as many bytes as characters. -/
theorem byteLength_of_isPrintable {t : Text} (h : IsPrintable t) : byteLength t = t.length := by
  induction t with
  | nil => rfl
  | cons c t ih =>
      have hc := h c List.mem_cons_self
      have ht := ih fun d hd => h d (List.mem_cons_of_mem c hd)
      rw [byteLength] at ht ⊢
      rw [Text.encode_cons, PyJson.utf8EncodeChar_ascii (by omega), List.length_append, ht]
      simp [Nat.add_comm]

/-- A printable text that is not too long is a line. -/
theorem wellFormedLine_of_isPrintable {t : Text} (hne : t ≠ []) (hlength : t.length ≤ 4096)
    (h : IsPrintable t) :
  WellFormedLine p.ucd t
  := by
  refine ⟨hne, ?_, ?_⟩
  · rwa [byteLength_of_isPrintable h]
  · intro c hc
    exact p.printable c (h c hc).1 (h c hc).2

/-- One line is accepted. -/
theorem acceptedLines_singleton {line : Text} (h : WellFormedLine p.ucd line) (field : String) :
  acceptedLines p [line] field = .ok [line]
  := by
  have hbytes : byteLength line ≤ 64 * 1024 := by
    have hlength := h.2.1
    omega
  simp [acceptedLines, checkLines, checkLine, rejectIf, h]
  exact hbytes

/-! ### Reports -/

/-- A status report of an idle controller with the texts of its three positions. -/
def poseText (mpos wpos wco : Text) : Text :=
  "<Idle|MPos:".toList ++ mpos ++ "|WPos:".toList ++ wpos ++ "|WCO:".toList ++ wco ++ ">".toList

/-- The parts of a report between the brackets. -/
def poseParts (mpos wpos wco : Text) : List Text :=
  ["Idle".toList, "MPos".toList ++ ':' :: mpos, "WPos".toList ++ ':' :: wpos,
    "WCO".toList ++ ':' :: wco]

/-- A text that has none of the characters that a report has between its positions. -/
structure Inside (t : Text) : Prop where
  less : '<' ∉ t
  greater : '>' ∉ t
  bar : '|' ∉ t

/-- A position can stand inside a report. -/
theorem inside_vectorText (v : Vector3) : Inside (vectorText v) :=
  ⟨not_mem_vectorText (by decide), not_mem_vectorText (by decide), not_mem_vectorText (by decide)⟩

/-- A report is its parts, separated by bars, in brackets. -/
theorem poseText_eq (mpos wpos wco : Text) :
  poseText mpos wpos wco = '<' :: ("Idle".toList ++ '|' ::
    (("MPos".toList ++ ':' :: mpos) ++ '|' ::
      (("WPos".toList ++ ':' :: wpos) ++ '|' :: ("WCO".toList ++ ':' :: wco)))) ++ ['>']
  := by
  unfold poseText
  simp

/-- The length of a report. -/
theorem length_poseText (mpos wpos wco : Text) :
  (poseText mpos wpos wco).length = mpos.length + wpos.length + wco.length + 23
  := by
  rw [poseText_eq]
  simp
  omega

/-- A report of printable positions is printable. -/
theorem isPrintable_poseText {mpos wpos wco : Text} (hm : IsPrintable mpos)
    (hw : IsPrintable wpos) (hc : IsPrintable wco) :
  IsPrintable (poseText mpos wpos wco)
  := by
  unfold poseText
  apply IsPrintable.append _ (by decide)
  apply IsPrintable.append _ hc
  apply IsPrintable.append _ (by decide)
  apply IsPrintable.append _ hw
  apply IsPrintable.append _ (by decide)
  apply IsPrintable.append (by decide) hm

section Pose

variable {mpos wpos wco : Text} (hm : Inside mpos) (hw : Inside wpos) (hc : Inside wco)

include hm hw hc

/-- A report is split into its parts. -/
theorem splitAt_poseText :
  splitAt '|' (poseText mpos wpos wco).tail.dropLast = poseParts mpos wpos wco
  := by
  have hidle : '|' ∉ "Idle".toList := by decide
  have hmpos : '|' ∉ "MPos".toList ++ ':' :: mpos := by simpa using hm.bar
  have hwpos : '|' ∉ "WPos".toList ++ ':' :: wpos := by simpa using hw.bar
  have hwco : '|' ∉ "WCO".toList ++ ':' :: wco := by simpa using hc.bar
  rw [poseText_eq, List.cons_append, List.tail_cons, List.dropLast_concat, splitAt,
    List.splitOn_append_cons_self_of_not_mem hidle,
    List.splitOn_append_cons_self_of_not_mem hmpos,
    List.splitOn_append_cons_self_of_not_mem hwpos, List.splitOn_eq_singleton hwco, poseParts]

/-- A report is in angle brackets. -/
theorem isReport_poseText : isReport (poseText mpos wpos wco) = true := by
  have hlast : (poseText mpos wpos wco).getLast? = some '>' := by
    rw [poseText_eq, List.getLast?_concat]
  have hless : (poseText mpos wpos wco).count '<' = 1 := by
    unfold poseText
    simp [List.count_eq_zero.mpr hm.less, List.count_eq_zero.mpr hw.less,
      List.count_eq_zero.mpr hc.less]
  have hgreater : (poseText mpos wpos wco).count '>' = 1 := by
    unfold poseText
    simp [List.count_eq_zero.mpr hm.greater, List.count_eq_zero.mpr hw.greater,
      List.count_eq_zero.mpr hc.greater]
  rw [isReport, hlast, hless, hgreater, poseText_eq]
  rfl

end Pose

/-- The name and the value of a field. -/
theorem splitField {name value : Text} (h : ':' ∉ name) :
  (name ++ ':' :: value).takeWhile (· ≠ ':') = name ∧
    ((name ++ ':' :: value).dropWhile (· ≠ ':')).tail = value
  := by
  have hname : ∀ c ∈ name, decide (c ≠ ':') = true := by
    intro c hc
    apply decide_eq_true
    rintro rfl
    exact h hc
  constructor
  · rw [List.takeWhile_append_of_pos hname]
    simp
  · rw [List.dropWhile_append_of_pos hname]
    simp

/-- A field of a report is read as its name and its value. -/
theorem Positions.read_field (positions : Positions) {name value : Text} (h : ':' ∉ name) :
  positions.read p (name ++ ':' :: value) = positions.add p name value
  := by
  rw [Positions.read, (splitField h).1, (splitField h).2]
  simp [rejectIf]
  rfl

/-- The positions of a report. -/
theorem foldlM_poseParts {m w c : Text} {mpos wpos wco : Vector3}
    (hm : parseVector p m "controller status position" = .ok mpos)
    (hw : parseVector p w "controller status position" = .ok wpos)
    (hc : parseVector p c "controller status position" = .ok wco) :
  (poseParts m w c).tail.foldlM (Positions.read p) {} = .ok ⟨mpos, wpos, wco⟩
  := by
  have hmpos : ':' ∉ "MPos".toList := by decide
  have hwpos : ':' ∉ "WPos".toList := by decide
  have hwco : ':' ∉ "WCO".toList := by decide
  simp only [poseParts, List.tail_cons, List.foldlM_cons, List.foldlM_nil,
    Positions.read_field _ hmpos, Positions.read_field _ hwpos, Positions.read_field _ hwco]
  simp [Positions.add, hm, hw, hc, rejectIf, bind, Except.bind, pure, Except.pure]

/-- A report of an idle controller is read back. -/
theorem parseControllerStatus_poseText {m w c : Text} {mpos wpos wco : Vector3}
    (hline : WellFormedLine p.ucd (poseText m w c)) (hm : Inside m) (hw : Inside w)
    (hc : Inside c) (hmpos : parseVector p m "controller status position" = .ok mpos)
    (hwpos : parseVector p w "controller status position" = .ok wpos)
    (hwco : parseVector p c "controller status position" = .ok wco) :
  parseControllerStatus p (poseText m w c) = .ok {
    state := .idle
    stateText := "Idle"
    mpos := some mpos.axes
    wpos := some wpos.axes
    wco := some wco.axes
    statusLine := poseText m w c }
  := by
  have hchecked : checkLine p (poseText m w c) "controller status" = .ok () := by
    simp [checkLine, rejectIf, hline]
  have hparts := splitAt_poseText hm hw hc
  have hreport := isReport_poseText hm hw hc
  have hstate : parseState "Idle".toList = .ok .idle := rfl
  have hfields := foldlM_poseParts hmpos hwpos hwco
  have hhead : (poseParts m w c).head? = some "Idle".toList := rfl
  have hname : (poseParts m w c).headD [] = "Idle".toList := rfl
  simp only [parseControllerStatus, hchecked, hreport, hparts, hhead, hname, hstate, hfields,
    rejectIf, bind, Except.bind, pure, Except.pure]
  rfl

/-! ### Offsets -/

/-- A report of the offset of the work coordinates with the text of its position. -/
def offsetText (g54 : Text) : Text := "[G54:".toList ++ g54 ++ "]".toList

/-- A report of an offset is its name and its value, in brackets. -/
theorem offsetText_eq (g54 : Text) :
  offsetText g54 = '[' :: ("G54".toList ++ ':' :: g54) ++ [']']
  := by
  unfold offsetText
  simp

/-- The length of a report of an offset. -/
theorem length_offsetText (g54 : Text) : (offsetText g54).length = g54.length + 6 := by
  rw [offsetText_eq]
  simp

/-- A report of a printable offset is printable. -/
theorem isPrintable_offsetText {g54 : Text} (hg : IsPrintable g54) : IsPrintable (offsetText g54)
  := by
  unfold offsetText
  apply IsPrintable.append _ (by decide)
  apply IsPrintable.append (by decide) hg

/-- A report of an offset has its name and its value. -/
theorem offsetLine?_offsetText {g54 : Text} (hne : g54 ≠ []) (hbracket : ']' ∉ g54) :
  offsetLine? (offsetText g54) = some ("G54".toList, g54)
  := by
  have hstrip : Text.strip (offsetText g54) = offsetText g54 := by
    rw [offsetText_eq]
    apply Text.strip_eq_self
    · intro d hd
      cases hd
      rfl
    · intro d hd
      rw [List.getLast?_concat] at hd
      cases hd
      rfl
  have hinner : (offsetText g54).tail.dropLast = "G54".toList ++ ':' :: g54 := by
    rw [offsetText_eq, List.cons_append, List.tail_cons, List.dropLast_concat]
  have hfield := @splitField "G54".toList g54 (by decide)
  have hlast : (offsetText g54).getLast? = some ']' := by
    rw [offsetText_eq, List.getLast?_concat]
  have hhead : (offsetText g54).head? = some '[' := by
    rw [offsetText_eq]
    rfl
  have hlength : 2 ≤ (offsetText g54).length := by
    rw [offsetText_eq]
    simp
  simp only [offsetLine?, hstrip, hinner, hfield.1, hfield.2, hlast, hhead, hlength]
  rw [if_pos]
  exact ⟨trivial, trivial, trivial, rfl, rfl, by decide, by simp, hne, hbracket⟩

/-- A report of an offset is read back. -/
theorem parseOffsets_offsetText {g : Text} {g54 : Vector3}
    (hline : WellFormedLine p.ucd (offsetText g)) (hne : g ≠ []) (hbracket : ']' ∉ g)
    (hg : parseVector p g "work offset" = .ok g54) :
  parseOffsets p [offsetText g] = .ok [⟨"G54", g54.axes⟩]
  := by
  have hname : String.ofList ("G54".toList.map upperAscii) = "G54" := by decide
  simp only [parseOffsets, acceptedLines_singleton hline, bind, Except.bind, List.foldlM_cons,
    List.foldlM_nil, readOffset, offsetLine?_offsetText hne hbracket, hname, hg]
  simp [rejectIf, pure, Except.pure]

/-! ### Positions in reports -/

/-- The text of a position is not too long. -/
theorem length_vectorText_le {bound : ℕ} {v : Vector3} (hpos : 0 < bound)
    (h : v.IsMilli (10 ^ bound)) :
  (vectorText v).length ≤ 3 * bound + 17
  := by
  have hx := length_fixedText_le hpos h.1
  have hy := length_fixedText_le hpos h.2.1
  have hz := length_fixedText_le hpos h.2.2
  simp only [vectorText, List.length_append, List.length_cons]
  omega

/-- A report of positions is a line. -/
theorem wellFormedLine_poseText {mpos wpos wco : Vector3} (hm : mpos.IsMilli (10 ^ 310))
    (hw : wpos.IsMilli (10 ^ 310)) (hc : wco.IsMilli (10 ^ 310)) :
  WellFormedLine p.ucd (poseText (vectorText mpos) (vectorText wpos) (vectorText wco))
  := by
  apply wellFormedLine_of_isPrintable
  · rw [poseText_eq]
    simp
  · rw [length_poseText]
    have hmpos := length_vectorText_le (by omega) hm
    have hwpos := length_vectorText_le (by omega) hw
    have hwco := length_vectorText_le (by omega) hc
    omega
  · apply isPrintable_poseText <;> apply isPrintable_vectorText

/-- A report of an offset is a line. -/
theorem wellFormedLine_offsetText {g54 : Vector3} (hg : g54.IsMilli (10 ^ 310)) :
  WellFormedLine p.ucd (offsetText (vectorText g54))
  := by
  apply wellFormedLine_of_isPrintable
  · rw [offsetText_eq]
    simp
  · rw [length_offsetText]
    have hlength := length_vectorText_le (by omega) hg
    omega
  · exact isPrintable_offsetText (isPrintable_vectorText g54)

end DrawingMachine
