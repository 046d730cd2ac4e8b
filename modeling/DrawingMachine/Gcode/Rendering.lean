import DrawingMachine.Gcode.Build

/-!
# Rendered lines

How the static check reads the lines that the builder renders. The builder writes rounded
numbers, and the words of a rendered line are the rounded numbers.
-/

namespace DrawingMachine

/-! ### Rendered numbers are read back rounded -/

section Numbers

variable (ucd : UnicodeData)

/-- Digits in front of a text that goes on with something else. -/
theorem takeWhile_digits {digits rest : Text} (h : ucd.AllDigits digits)
    (hrest : ∀ c ∈ rest.head?, ucd.isDigit c = false) :
  (digits ++ rest).takeWhile ucd.isDigit = digits ∧
    (digits ++ rest).dropWhile ucd.isDigit = rest
  := by
  induction digits with
  | nil =>
      cases rest with
      | nil => exact ⟨rfl, rfl⟩
      | cons c rest => simp [hrest c rfl]
  | cons c digits ih =>
      have hc := h c (by simp)
      have := ih fun d hd => h d (by simp [hd])
      simp [hc, this]

/-- A rendered number without a sign is read back as it was rounded. -/
theorem unsignedNumber_rendered (k : ℕ) (hk : 0 < k) (n : ℕ) {rest : Text}
    (hrest : ∀ c ∈ rest.head?, ucd.isDigit c = false) :
  unsignedNumber ucd (Nat.toDigits 10 (n / 10 ^ k) ++ '.' :: (lastDigits k n ++ rest))
    = some ((n : ℚ) / 10 ^ k, (Nat.toDigits 10 (n / 10 ^ k)).length + 1 + k)
  := by
  have hpoint : ∀ c ∈ ('.' :: (lastDigits k n ++ rest)).head?, ucd.isDigit c = false := by
    simpa using ucd.isDigit_eq_false (c := '.') (by decide) (by decide)
  have hwhole := takeWhile_digits ucd (ucd.allDigits_toDigits (n / 10 ^ k)) hpoint
  have hfraction := takeWhile_digits ucd (ucd.allDigits_lastDigits k n) hrest
  have hne : lastDigits k n ≠ [] := by
    intro h
    have := length_lastDigits k n
    rw [h] at this
    simp at this
    omega
  unfold unsignedNumber
  simp only [hwhole.1, hwhole.2, hfraction.1, hne, if_false, ucd.digitsValue_toDigits,
    ucd.digitsValue_lastDigits, length_lastDigits, whole_add_fraction]

/-- A number that starts with a digit has no sign. -/
theorem numberAt_of_digits {digits rest : Text} (h : ucd.AllDigits digits) (hne : digits ≠ []) :
  numberAt ucd (digits ++ rest) = unsignedNumber ucd (digits ++ rest)
  := by
  cases digits with
  | nil => exact absurd rfl hne
  | cons d digits =>
      have hd := h d (by simp)
      unfold numberAt
      split
      · next heq =>
          cases heq
          rw [ucd.isDigit_eq_false (by decide) (by decide)] at hd
          cases hd
      · next heq =>
          cases heq
          rw [ucd.isDigit_eq_false (by decide) (by decide)] at hd
          cases hd
      · rfl

/-- A rendered number is read back rounded. -/
theorem numberAt_fixedText {k : ℕ} (hk : 0 < k) (x : ℚ) {rest : Text}
    (hrest : ∀ c ∈ rest.head?, ucd.isDigit c = false) :
  numberAt ucd (fixedText k x ++ rest) = some (roundTo k x, (fixedText k x).length)
  := by
  have hunsigned := unsignedNumber_rendered ucd k hk (roundHalfEven (|x| * 10 ^ k)).toNat hrest
  rw [natCast_toNat_roundHalfEven] at hunsigned
  unfold fixedText
  by_cases hneg : x < 0
  · rw [abs_of_neg hneg, roundTo_neg] at hunsigned
    simp only [hneg, if_true, abs_of_neg hneg, List.append_assoc, List.cons_append,
      List.nil_append]
    simp only [numberAt, hunsigned, Option.map_some, neg_neg, List.length_cons,
      List.length_append, length_lastDigits, Option.some.injEq, Prod.mk.injEq, true_and]
    omega
  · have habs : |x| = x := abs_of_nonneg (not_lt.mp hneg)
    rw [habs] at hunsigned
    simp only [hneg, if_false, habs, List.nil_append, List.append_assoc, List.cons_append]
    rw [numberAt_of_digits ucd (ucd.allDigits_toDigits _) (UnicodeData.toDigits_ne_nil _),
      hunsigned]
    simp only [List.length_cons, List.length_append, length_lastDigits, Option.some.injEq,
      Prod.mk.injEq, true_and]
    omega

/-- An integer is read back. -/
theorem numberAt_toDigits (n : ℕ) {rest : Text}
    (hrest : ∀ c ∈ rest.head?, ucd.isDigit c = false ∧ c ≠ '.') :
  numberAt ucd (Nat.toDigits 10 n ++ rest) = some ((n : ℚ), (Nat.toDigits 10 n).length)
  := by
  have hdigits := takeWhile_digits ucd (ucd.allDigits_toDigits n) fun c hc => (hrest c hc).1
  rw [numberAt_of_digits ucd (ucd.allDigits_toDigits n) (UnicodeData.toDigits_ne_nil n)]
  unfold unsignedNumber
  simp only [hdigits.1, hdigits.2, UnicodeData.toDigits_ne_nil, if_false,
    ucd.digitsValue_toDigits]
  split
  · next c t => exact absurd rfl (hrest '.' rfl).2
  · rfl

/-! ### The words of a rendered line -/

/-- The pieces of a line that starts with a rendered word. -/
theorem tokensFrom_word {c : Char} (hc : isLetter c = true) {number rest : Text} {q : ℚ}
    (hhead : ∀ d ∈ (number ++ rest).head?, Text.isSpace d = false)
    (h : numberAt ucd (number ++ rest) = some (q, number.length)) :
  tokensFrom ucd 0 (c :: (number ++ rest)) = .word c q :: tokensFrom ucd 0 rest
  := by
  have hblanks : (number ++ rest).takeWhile Text.isSpace = [] ∧
      (number ++ rest).dropWhile Text.isSpace = number ++ rest := by
    cases hnumber : number ++ rest with
    | nil => exact ⟨rfl, rfl⟩
    | cons d t =>
        rw [hnumber] at hhead
        simp [hhead d rfl]
  have hword : wordAt ucd (c :: (number ++ rest)) = some (c, q, 1 + number.length) := by
    simp [wordAt, hc, hblanks.1, hblanks.2, h]
  have hskip : tokensFrom ucd number.length (number ++ rest) = tokensFrom ucd 0 rest := by
    rw [tokensFrom_eq_drop, List.drop_left]
  simp only [tokensFrom, hword]
  rw [show 1 + number.length - 1 = number.length by omega, hskip]

/-- A blank is a gap. -/
theorem tokensFrom_space (rest : Text) :
  tokensFrom ucd 0 (' ' :: rest) = .gap ' ' :: tokensFrom ucd 0 rest
  := by
  simp [tokensFrom, wordAt, isLetter]

/-- What may follow a rendered word: a blank, or the end of the line. -/
def Separated (rest : Text) : Prop := ∀ c ∈ rest.head?, c = ' '

/-- The first character of a rendered number. -/
theorem isSpace_head_fixedText (k : ℕ) (x : ℚ) (rest : Text) :
  ∀ d ∈ (fixedText k x ++ rest).head?, Text.isSpace d = false
  := by
  intro d hd
  by_cases hneg : x < 0
  · simp only [fixedText, hneg, if_true, List.cons_append, List.head?_cons,
      Option.mem_some] at hd
    subst hd
    decide
  · simp only [fixedText, hneg, if_false, List.nil_append, List.append_assoc] at hd
    exact UnicodeData.isSpace_head_toDigits _ _ d hd

/-- The pieces of a line that starts with a letter and a rendered number. -/
theorem tokensFrom_fixedText {c : Char} (hc : isLetter c = true) {k : ℕ} (hk : 0 < k) (x : ℚ)
    {rest : Text} (hrest : Separated rest) :
  tokensFrom ucd 0 (c :: (fixedText k x ++ rest))
    = .word c (roundTo k x) :: tokensFrom ucd 0 rest
  := by
  apply tokensFrom_word ucd hc (isSpace_head_fixedText k x rest)
  apply numberAt_fixedText ucd hk
  intro d hd
  rw [hrest d hd]
  exact ucd.isDigit_eq_false (by decide) (by decide)

/-- The pieces of a line that starts with a letter and an integer. -/
theorem tokensFrom_toDigits {c : Char} (hc : isLetter c = true) (n : ℕ) {rest : Text}
    (hrest : Separated rest) :
  tokensFrom ucd 0 (c :: (Nat.toDigits 10 n ++ rest))
    = .word c n :: tokensFrom ucd 0 rest
  := by
  apply tokensFrom_word ucd hc (UnicodeData.isSpace_head_toDigits n rest)
  apply numberAt_toDigits ucd
  intro d hd
  rw [hrest d hd]
  exact ⟨ucd.isDigit_eq_false (by decide) (by decide), by decide⟩

/-- The words of a line that moves the pen. -/
def penWords (z feed : ℚ) : Words
  | .G => some 1
  | .X => none
  | .Y => none
  | .Z => some z
  | .F => some feed

/-- The words of a line that moves the tool. -/
def moveWords (g : ℚ) (p : Point) (feed : ℚ) : Words
  | .G => some g
  | .X => some p.x
  | .Y => some p.y
  | .Z => none
  | .F => some feed

theorem separated_blank (rest : Text) : Separated (' ' :: rest) := by
  intro c hc
  cases hc
  rfl

theorem separated_nil : Separated [] := by
  intro c hc
  cases hc

/-- A line that moves the pen is read back rounded. -/
theorem parseWords_penLine (z feed : ℚ) :
  parseWords ucd (penLine z feed) = ⟨penWords (roundTo 3 z) (roundTo 1 feed), []⟩
  := by
  have htext : penLine z feed =
      'G' :: (Nat.toDigits 10 1 ++ (' ' :: 'Z' :: (fixedText 3 z ++
        (' ' :: 'F' :: (fixedText 1 feed ++ []))))) := by
    simp only [penLine, List.append_nil, List.append_assoc]
    rfl
  have htokens : tokens ucd (penLine z feed) =
      [.word 'G' (1 : ℕ), .gap ' ', .word 'Z' (roundTo 3 z), .gap ' ',
        .word 'F' (roundTo 1 feed)] := by
    rw [tokens, htext, tokensFrom_toDigits ucd (by decide) 1 (separated_blank _),
      tokensFrom_space, tokensFrom_fixedText ucd (by decide) (by decide) z (separated_blank _),
      tokensFrom_space, tokensFrom_fixedText ucd (by decide) (by decide) feed separated_nil]
    rfl
  have hG : WordLetter.ofChar? 'G'.toUpper = some .G := by decide
  have hZ : WordLetter.ofChar? 'Z'.toUpper = some .Z := by decide
  have hF : WordLetter.ofChar? 'F'.toUpper = some .F := by decide
  rw [parseWords, htokens]
  simp only [List.foldl_cons, List.foldl_nil, ParsedWords.read_blank]
  rw [ParsedWords.read_word hG rfl, ParsedWords.read_word hZ rfl, ParsedWords.read_word hF rfl]
  congr 1
  funext letter
  cases letter <;> simp [penWords, Words.empty]

/-- A line that moves the tool is read back rounded. -/
theorem parseWords_moveLine {g : ℕ} {command : String}
    (hg : command.toList = 'G' :: Nat.toDigits 10 g) (p : Point) (feed : ℚ) :
  parseWords ucd (moveLine command p feed) = ⟨moveWords g (quantize p) (roundTo 1 feed), []⟩
  := by
  have htext : moveLine command p feed =
      'G' :: (Nat.toDigits 10 g ++ (' ' :: 'X' :: (fixedText 3 p.x ++
        (' ' :: 'Y' :: (fixedText 3 p.y ++ (' ' :: 'F' :: (fixedText 1 feed ++ []))))))) := by
    simp only [moveLine, hg, List.append_nil, List.append_assoc]
    rfl
  have htokens : tokens ucd (moveLine command p feed) =
      [.word 'G' g, .gap ' ', .word 'X' (roundTo 3 p.x), .gap ' ', .word 'Y' (roundTo 3 p.y),
        .gap ' ', .word 'F' (roundTo 1 feed)] := by
    rw [tokens, htext, tokensFrom_toDigits ucd (by decide) g (separated_blank _),
      tokensFrom_space, tokensFrom_fixedText ucd (by decide) (by decide) p.x (separated_blank _),
      tokensFrom_space, tokensFrom_fixedText ucd (by decide) (by decide) p.y (separated_blank _),
      tokensFrom_space, tokensFrom_fixedText ucd (by decide) (by decide) feed separated_nil]
    rfl
  have hG : WordLetter.ofChar? 'G'.toUpper = some .G := by decide
  have hX : WordLetter.ofChar? 'X'.toUpper = some .X := by decide
  have hY : WordLetter.ofChar? 'Y'.toUpper = some .Y := by decide
  have hF : WordLetter.ofChar? 'F'.toUpper = some .F := by decide
  rw [parseWords, htokens]
  simp only [List.foldl_cons, List.foldl_nil, ParsedWords.read_blank]
  rw [ParsedWords.read_word hG rfl, ParsedWords.read_word hX rfl, ParsedWords.read_word hY rfl,
    ParsedWords.read_word hF rfl]
  congr 1
  funext letter
  cases letter <;> simp [moveWords, quantize, Words.empty]

end Numbers

/-! ### The commands of a rendered line -/

/-- A line without comments is its own command. -/
theorem stripComments_of_plain {line : Text} (hopen : '(' ∉ line) (hsemi : ';' ∉ line) :
  stripComments line = line
  := by
  have hremove : removeParentheses false line = line := by
    clear hsemi
    induction line with
    | nil => rfl
    | cons c rest ih =>
        have hc : c ≠ '(' := fun h => hopen (by simp [h])
        simp only [removeParentheses, hc, false_and, if_false]
        rw [ih fun h => hopen (by simp [h])]
  rw [stripComments, hremove]
  apply List.takeWhile_eq_self_iff.mpr
  intro c hc
  have : c ≠ ';' := fun h => hsemi (h ▸ hc)
  simpa using this

/-- A line of comment has no command. -/
theorem commandOf_comment (rest : Text) : commandOf (';' :: rest) = [] := by
  simp [commandOf, stripComments, removeParentheses]
  rfl

/-- The characters of a rendered command: letters, digits, signs, points and blanks. -/
def Plain (line : Text) : Prop :=
  ∀ c ∈ line, c = ' ' ∨ (45 ≤ c.toNat ∧ c.toNat ≤ 57) ∨ isLetter c = true

instance (line : Text) : Decidable (Plain line) :=
  inferInstanceAs (Decidable (∀ c ∈ line, _))

theorem plain_append {s t : Text} (hs : Plain s) (ht : Plain t) : Plain (s ++ t) := by
  intro c hc
  rcases List.mem_append.mp hc with hc | hc
  · exact hs c hc
  · exact ht c hc

theorem plain_fixedText (k : ℕ) (x : ℚ) : Plain (fixedText k x) :=
  fun _ hc => .inr (.inl (toNat_of_mem_fixedText hc))

/-- A rendered command has no comment. -/
theorem Plain.not_mem {line : Text} (h : Plain line) : '(' ∉ line ∧ ';' ∉ line := by
  constructor
  · intro hc
    exact absurd (h _ hc) (by decide)
  · intro hc
    exact absurd (h _ hc) (by decide)

/-- A rendered command has no line break. -/
theorem Plain.unbroken {line : Text} (h : Plain line) : Text.Unbroken line := by
  intro c hc
  by_contra hbreak
  simp only [Bool.not_eq_false, Text.isLineBreak, Bool.or_eq_true, Bool.and_eq_true,
    decide_eq_true_eq, beq_iff_eq] at hbreak
  rcases h c hc with rfl | hrange | hletter
  · revert hbreak
    decide
  · omega
  · simp only [isLetter, Bool.or_eq_true, Bool.and_eq_true, decide_eq_true_eq] at hletter
    have : 'A'.toNat = 65 := rfl
    have : 'Z'.toNat = 90 := rfl
    have : 'a'.toNat = 97 := rfl
    have : 'z'.toNat = 122 := rfl
    omega

/-- A rendered line that starts with a letter and ends with a numeral is its own command. -/
theorem commandOf_of_plain {line : Text} (h : Plain line) {c : Char} (hc : Text.isSpace c = false)
    (front : Text) {k : ℕ} {x : ℚ} (hline : line = c :: (front ++ fixedText k x)) :
  commandOf line = line
  := by
  rw [commandOf, stripComments_of_plain h.not_mem.1 h.not_mem.2]
  apply Text.strip_eq_self
  · intro d hd
    rw [hline] at hd
    cases hd
    exact hc
  · intro d hd
    have hmem : d ∈ fixedText k x := by
      rw [hline, ← List.cons_append, List.getLast?_append_of_ne_nil _ (fixedText_ne_nil k x)] at hd
      exact List.mem_of_getLast? hd
    have hrange := toNat_of_mem_fixedText hmem
    by_contra hspace
    simp only [Bool.not_eq_false, Text.isSpace, Bool.or_eq_true, Bool.and_eq_true,
      decide_eq_true_eq, beq_iff_eq] at hspace
    omega

theorem plain_penLine (z feed : ℚ) : Plain (penLine z feed) := by
  have h1 : Plain "G1 Z".toList := by decide
  have h2 : Plain " F".toList := by decide
  exact plain_append (plain_append (plain_append h1 (plain_fixedText 3 z)) h2)
    (plain_fixedText 1 feed)

theorem plain_moveLine {command : String} (hc : Plain command.toList) (p : Point) (feed : ℚ) :
  Plain (moveLine command p feed)
  := by
  have h1 : Plain " X".toList := by decide
  have h2 : Plain " Y".toList := by decide
  have h3 : Plain " F".toList := by decide
  exact plain_append (plain_append (plain_append (plain_append (plain_append
    (plain_append hc h1) (plain_fixedText 3 p.x)) h2) (plain_fixedText 3 p.y)) h3)
    (plain_fixedText 1 feed)

/-- A line that moves the pen is its own command. -/
theorem commandOf_penLine (z feed : ℚ) : commandOf (penLine z feed) = penLine z feed := by
  apply commandOf_of_plain (plain_penLine z feed) (c := 'G') (by decide)
    ("1 Z".toList ++ fixedText 3 z ++ " F".toList)
  simp only [penLine]
  rfl

/-- A line that moves the tool is its own command. -/
theorem commandOf_moveLine {command : String} {rest : Text} (hg : command.toList = 'G' :: rest)
    (hplain : Plain command.toList) (p : Point) (feed : ℚ) :
  commandOf (moveLine command p feed) = moveLine command p feed
  := by
  apply commandOf_of_plain (plain_moveLine hplain p feed) (c := 'G') (by decide)
    (rest ++ " X".toList ++ fixedText 3 p.x ++ " Y".toList ++ fixedText 3 p.y ++ " F".toList)
  simp only [moveLine, hg]
  rfl

end DrawingMachine
