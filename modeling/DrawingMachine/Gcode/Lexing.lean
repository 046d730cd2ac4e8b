import DrawingMachine.Gcode.Interpreter

/-!
# Two readings of a line

The static check searches a line for words with a pattern, and the interpreter reads it
with an automaton. When the search leaves no gap but white space, both find the same
words; and when the check has no issue with the words, both understand them the same way.
-/

namespace DrawingMachine

namespace Interpreter

variable (ucd : UnicodeData)

/-! ### Characters -/

theorem isSpace_eq_false_of_isLetter {c : Char} (h : isLetter c = true) :
  Text.isSpace c = false
  := by
  simp only [isLetter, Bool.or_eq_true, Bool.and_eq_true, decide_eq_true_eq] at h
  simp only [Text.isSpace, Bool.or_eq_false_iff, Bool.and_eq_false_iff, decide_eq_false_iff_not,
    beq_eq_false_iff_ne]
  have : 'A'.toNat = 65 := rfl
  have : 'Z'.toNat = 90 := rfl
  have : 'a'.toNat = 97 := rfl
  have : 'z'.toNat = 122 := rfl
  omega

theorem decimal_eq_none_of_isDigit {c : Char} (h : ucd.isDigit c = false) :
  ucd.decimal c = none
  := by
  simpa [UnicodeData.isDigit] using h

theorem exists_decimal_of_isDigit {c : Char} (h : ucd.isDigit c = true) :
  ∃ d, ucd.decimal c = some d
  := Option.isSome_iff_exists.mp h

/-- The decimal point is not a digit. -/
theorem decimal_point : ucd.decimal '.' = none := ucd.decimal_eq_none (by decide) (by decide)

/-! ### Numbers -/

/-- The number that digits continue. -/
def continueDigits (n : ℕ) (digits : Text) : ℕ :=
  digits.foldl (fun n c => 10 * n + (ucd.decimal c).getD 0) n

/-- Digits shift the number in front of them. -/
theorem continueDigits_eq (n : ℕ) (digits : Text) :
  continueDigits ucd n digits = n * 10 ^ digits.length + ucd.digitsValue digits
  := by
  induction digits using List.reverseRecOn generalizing n with
  | nil => simp [continueDigits]
  | append_singleton digits c ih =>
      have hl : continueDigits ucd n (digits ++ [c])
          = 10 * continueDigits ucd n digits + (ucd.decimal c).getD 0 := by
        simp [continueDigits]
      rw [hl, ih, UnicodeData.digitsValue_append_singleton, List.length_append,
        List.length_singleton, Nat.pow_succ]
      ring

/-! ### Steps of the automaton -/

/-- A step that ends no word. -/
theorem lexFrom_cons {state state' : LexState} {d : Char}
    (h : lexStep ucd state d = some (state', none)) (rest : Text) :
  lexFrom ucd state (d :: rest) = lexFrom ucd state' rest
  := by
  simp [lexFrom, h]

/-- A step that ends a word. -/
theorem lexFrom_cons_word {state state' : LexState} {d : Char} {w : Word}
    (h : lexStep ucd state d = some (state', some w)) (rest : Text) :
  lexFrom ucd state (d :: rest) = (lexFrom ucd state' rest).map (w :: ·)
  := by
  simp only [lexFrom, h, Option.bind_eq_bind, Option.bind_some]
  cases lexFrom ucd state' rest with
  | none => rfl
  | some words => rfl

/-- The automaton reads digits in front of the decimal point. -/
theorem lexFrom_whole {digits : Text} (h : ucd.AllDigits digits) (c : Char) (negative : Bool)
    (n : ℕ) (rest : Text) :
  lexFrom ucd (.whole c negative n) (digits ++ rest)
    = lexFrom ucd (.whole c negative (continueDigits ucd n digits)) rest
  := by
  induction digits generalizing n with
  | nil => rfl
  | cons d digits ih =>
      obtain ⟨k, hk⟩ := exists_decimal_of_isDigit ucd (h d (by simp))
      have hstep : lexStep ucd (.whole c negative n) d
          = some (.whole c negative (10 * n + k), none) := by simp [lexStep, hk]
      rw [List.cons_append, lexFrom_cons ucd hstep, ih fun e he => h e (by simp [he])]
      simp [continueDigits, hk]

/-- The automaton reads digits behind the decimal point. -/
theorem lexFrom_fraction {digits : Text} (h : ucd.AllDigits digits) (c : Char)
    (negative : Bool) (n k : ℕ) (rest : Text) :
  lexFrom ucd (.fraction c negative n k) (digits ++ rest)
    = lexFrom ucd (.fraction c negative (continueDigits ucd n digits) (k + digits.length)) rest
  := by
  induction digits generalizing n k with
  | nil => rfl
  | cons d digits ih =>
      obtain ⟨j, hj⟩ := exists_decimal_of_isDigit ucd (h d (by simp))
      have hstep : lexStep ucd (.fraction c negative n k) d
          = some (.fraction c negative (10 * n + j) (k + 1), none) := by simp [lexStep, hj]
      rw [List.cons_append, lexFrom_cons ucd hstep, ih fun e he => h e (by simp [he])]
      simp [continueDigits, hj, Nat.add_comm, Nat.add_left_comm]

/-- The automaton reads the blanks behind a letter. -/
theorem lexFrom_letter_blanks {blanks : Text} (h : ∀ d ∈ blanks, Text.isSpace d = true)
    (c : Char) (rest : Text) :
  lexFrom ucd (.letter c) (blanks ++ rest) = lexFrom ucd (.letter c) rest
  := by
  induction blanks with
  | nil => rfl
  | cons d blanks ih =>
      have hstep : lexStep ucd (.letter c) d = some (.letter c, none) := by
        simp [lexStep, h d (by simp)]
      rw [List.cons_append, lexFrom_cons ucd hstep, ih fun e he => h e (by simp [he])]

/-! ### A whole number -/

/-- The automaton is behind the last digit of a word. -/
inductive Holds : LexState → Word → Prop where
  | whole (c negative n) : Holds (.whole c negative n) (wordOf c negative n 0)
  | fraction (c negative n k) : Holds (.fraction c negative n k) (wordOf c negative n k)

/-- The text does not start with a character that could continue a number. -/
def EndsNumber (t : Text) : Prop := ∀ d ∈ t.head?, ucd.isDigit d = false ∧ d ≠ '.'

/-- Behind a number the automaton is between words. -/
theorem lexFrom_of_holds {state : LexState} {w : Word} (h : Holds state w) {rest : Text}
    (hrest : EndsNumber ucd rest) :
  lexFrom ucd state rest = (lexFrom ucd .idle rest).map (w :: ·)
  := by
  cases rest with
  | nil => cases h <;> rfl
  | cons d rest =>
      obtain ⟨hdigit, hdot⟩ := hrest d rfl
      have hnone := decimal_eq_none_of_isDigit ucd hdigit
      have hstep : lexStep ucd state d = (between d).map (·, some w) := by
        cases h with
        | whole c negative n => simp [lexStep, hnone, hdot]
        | fraction c negative n k => simp [lexStep, hnone]
      cases hb : between d with
      | none =>
          have hidle : lexStep ucd .idle d = none := by simp [lexStep, hb]
          rw [hb] at hstep
          simp [lexFrom, hstep, hidle]
      | some state' =>
          rw [hb] at hstep
          have hidle : lexStep ucd .idle d = some (state', none) := by simp [lexStep, hb]
          rw [lexFrom_cons_word ucd hstep, lexFrom_cons ucd hidle]

/-- The automaton reads the decimal point and the digits behind it. -/
theorem lexFrom_point {digits : Text} (h : ucd.AllDigits digits) (hne : digits ≠ [])
    (c : Char) (negative : Bool) (n : ℕ) (rest : Text) :
  lexFrom ucd (.point c negative n) (digits ++ rest)
    = lexFrom ucd (.fraction c negative (continueDigits ucd n digits) digits.length) rest
  := by
  cases digits with
  | nil => exact absurd rfl hne
  | cons d digits =>
      obtain ⟨k, hk⟩ := exists_decimal_of_isDigit ucd (h d (by simp))
      have hstep : lexStep ucd (.point c negative n) d
          = some (.fraction c negative (10 * n + k) 1, none) := by simp [lexStep, hk]
      rw [List.cons_append, lexFrom_cons ucd hstep,
        lexFrom_fraction ucd fun e he => h e (by simp [he])]
      simp [continueDigits, hk, Nat.add_comm]

/-- From `state` the automaton starts the number of a word in front of `t`. -/
def StartsNumber (state : LexState) (c : Char) (negative : Bool) (t : Text) : Prop :=
  ∀ d ∈ t.head?, lexStep ucd state d = (startNumber ucd c negative d).map (·, none)

/-- The automaton reads the digits a number starts with. -/
theorem lexFrom_digits {state : LexState} {c : Char} {negative : Bool} {digits rest : Text}
    (hs : StartsNumber ucd state c negative (digits ++ rest)) (h : ucd.AllDigits digits)
    (hne : digits ≠ []) :
  lexFrom ucd state (digits ++ rest)
    = lexFrom ucd (.whole c negative (ucd.digitsValue digits)) rest
  := by
  cases digits with
  | nil => exact absurd rfl hne
  | cons d digits =>
      obtain ⟨k, hk⟩ := exists_decimal_of_isDigit ucd (h d (by simp))
      have hdot : d ≠ '.' := by
        rintro rfl
        rw [decimal_point] at hk
        cases hk
      have hstep : lexStep ucd state d = some (.whole c negative k, none) := by
        rw [hs d rfl]
        simp [startNumber, hdot, hk]
      rw [List.cons_append, lexFrom_cons ucd hstep,
        lexFrom_whole ucd fun e he => h e (by simp [he])]
      simp [continueDigits, UnicodeData.digitsValue, hk]

/-- The digits in front of a text. -/
theorem allDigits_takeWhile (t : Text) : ucd.AllDigits (t.takeWhile ucd.isDigit) := by
  intro c hc
  exact List.mem_takeWhile_imp hc

/-- What the automaton does with a number: it ends up behind the last digit, holding the
word. -/
def ReadsNumber (state : LexState) (w : Word) (t : Text) (n : ℕ) : Prop :=
  ∃ state', Holds state' w ∧ lexFrom ucd state t = lexFrom ucd state' (t.drop n) ∧
    ∀ d ∈ (t.drop n).head?, ucd.isDigit d = false

/-- The word of a number without decimals. -/
theorem readsNumber_whole {state : LexState} {c : Char} {negative : Bool} {t : Text}
    (hs : StartsNumber ucd state c negative t) (hne : t.takeWhile ucd.isDigit ≠ []) :
  ReadsNumber ucd state
    (wordOf c negative (ucd.digitsValue (t.takeWhile ucd.isDigit)) 0) t
    (t.takeWhile ucd.isDigit).length
  := by
  have hsplit : t.takeWhile ucd.isDigit ++ t.dropWhile ucd.isDigit = t :=
    List.takeWhile_append_dropWhile
  have hdrop := Text.drop_length_takeWhile ucd.isDigit t
  have hread := lexFrom_digits ucd (hsplit ▸ hs) (allDigits_takeWhile ucd t) hne
  rw [hsplit] at hread
  refine ⟨_, Holds.whole c negative (ucd.digitsValue (t.takeWhile ucd.isDigit)), ?_, ?_⟩
  · rw [hdrop, hread]
  · rw [hdrop]
    exact Text.head_dropWhile ucd.isDigit t

/-- The word of a number with decimals. -/
theorem readsNumber_fraction {state : LexState} {c : Char} {negative : Bool}
    {whole fraction rest : Text}
    (hs : StartsNumber ucd state c negative (whole ++ '.' :: (fraction ++ rest)))
    (hw : ucd.AllDigits whole) (hf : ucd.AllDigits fraction) (hne : fraction ≠ [])
    (hrest : ∀ d ∈ rest.head?, ucd.isDigit d = false) :
  ReadsNumber ucd state
    (wordOf c negative (continueDigits ucd (ucd.digitsValue whole) fraction) fraction.length)
    (whole ++ '.' :: (fraction ++ rest)) (whole.length + 1 + fraction.length)
  := by
  have hdrop : (whole ++ '.' :: (fraction ++ rest)).drop (whole.length + 1 + fraction.length)
      = rest := by
    rw [Nat.add_assoc, ← List.drop_drop, List.drop_left, Nat.add_comm, List.drop_succ_cons,
      List.drop_left]
  refine ⟨_, Holds.fraction c negative (continueDigits ucd (ucd.digitsValue whole) fraction)
    fraction.length, ?_, ?_⟩
  · rw [hdrop]
    by_cases hwne : whole = []
    · subst hwne
      have hstep : lexStep ucd state '.' = some (.point c negative 0, none) := by
        rw [hs '.' rfl]
        simp [startNumber]
      rw [List.nil_append, lexFrom_cons ucd hstep, lexFrom_point ucd hf hne]
      rfl
    · have hstep : lexStep ucd (.whole c negative (ucd.digitsValue whole)) '.'
          = some (.point c negative (ucd.digitsValue whole), none) := by
        simp [lexStep, decimal_point]
      rw [lexFrom_digits ucd hs hw hwne, lexFrom_cons ucd hstep, lexFrom_point ucd hf hne]
  · rw [hdrop]
    exact hrest

/-- The value of a word with decimals. -/
theorem wordOf_continueDigits (c : Char) (negative : Bool) (whole fraction : Text) :
  wordOf c negative (continueDigits ucd (ucd.digitsValue whole) fraction) fraction.length
    = ⟨c, if negative then
        -((ucd.digitsValue whole : ℚ) + ucd.digitsValue fraction / 10 ^ fraction.length)
      else ucd.digitsValue whole + ucd.digitsValue fraction / 10 ^ fraction.length⟩
  := by
  have hp : (10 : ℚ) ^ fraction.length ≠ 0 := by positivity
  have hvalue : ((continueDigits ucd (ucd.digitsValue whole) fraction : ℕ) : ℚ)
        / 10 ^ fraction.length
      = ucd.digitsValue whole + ucd.digitsValue fraction / 10 ^ fraction.length := by
    rw [continueDigits_eq]
    push_cast
    field_simp
  simp only [wordOf, hvalue]

/-- The automaton reads a number without a sign as the pattern does. -/
theorem readsNumber_unsigned {state : LexState} {c : Char} {negative : Bool} {t : Text}
    (hs : StartsNumber ucd state c negative t) {q : ℚ} {n : ℕ}
    (h : unsignedNumber ucd t = some (q, n)) :
  ReadsNumber ucd state ⟨c, if negative then -q else q⟩ t n
  := by
  have hbare : ∀ {q : ℚ} {n : ℕ},
      (if t.takeWhile ucd.isDigit = [] then none
        else some ((ucd.digitsValue (t.takeWhile ucd.isDigit) : ℚ),
          (t.takeWhile ucd.isDigit).length)) = some (q, n) →
        ReadsNumber ucd state ⟨c, if negative then -q else q⟩ t n := by
    intro q n hbare
    split at hbare
    · cases hbare
    · next hne =>
        cases hbare
        simpa [wordOf] using readsNumber_whole ucd hs hne
  unfold unsignedNumber at h
  dsimp only at h
  split at h
  · next rest hrest =>
      split at h
      · exact hbare h
      · next hne =>
          cases h
          have hsplit : t = t.takeWhile ucd.isDigit ++
              '.' :: (rest.takeWhile ucd.isDigit ++ rest.dropWhile ucd.isDigit) := by
            rw [List.takeWhile_append_dropWhile, ← hrest, List.takeWhile_append_dropWhile]
          have hread := readsNumber_fraction ucd (hsplit ▸ hs) (allDigits_takeWhile ucd t)
            (allDigits_takeWhile ucd rest) hne (Text.head_dropWhile ucd.isDigit rest)
          rw [← hsplit, wordOf_continueDigits] at hread
          exact hread
  · exact hbare h

/-- A letter starts its number at the first character that is neither white space nor a
sign. -/
theorem startsNumber_letter {c : Char} {t : Text}
    (hspace : ∀ d ∈ t.head?, Text.isSpace d = false) (hsign : ∀ d ∈ t.head?, d ≠ '-' ∧ d ≠ '+') :
  StartsNumber ucd (.letter c) c false t
  := by
  intro d hd
  obtain ⟨hminus, hplus⟩ := hsign d hd
  simp [lexStep, hspace d hd, hminus, hplus]

/-- The automaton reads the number of a word as the pattern does. -/
theorem readsNumber_numberAt {c : Char} {t : Text}
    (hspace : ∀ d ∈ t.head?, Text.isSpace d = false) {q : ℚ} {n : ℕ}
    (h : numberAt ucd t = some (q, n)) :
  ReadsNumber ucd (.letter c) ⟨c, q⟩ t n
  := by
  have hsigned : ∀ {d : Char} {negative : Bool} {rest : Text} {q : ℚ} {n : ℕ},
      lexStep ucd (.letter c) d = some (.signed c negative, none) →
      unsignedNumber ucd rest = some (q, n) →
      ReadsNumber ucd (.letter c) ⟨c, if negative then -q else q⟩ (d :: rest) (n + 1) := by
    intro d negative rest q n hstep hrest
    have hs : StartsNumber ucd (.signed c negative) c negative rest := fun e _ => rfl
    obtain ⟨state, hholds, hlex, hend⟩ := readsNumber_unsigned ucd hs hrest
    exact ⟨state, hholds, by rw [lexFrom_cons ucd hstep, hlex, List.drop_succ_cons],
      by simpa using hend⟩
  unfold numberAt at h
  split at h
  · next rest =>
      obtain ⟨⟨q', n'⟩, hrest, heq⟩ := Option.map_eq_some_iff.mp h
      cases heq
      have hstep : lexStep ucd (.letter c) '-' = some (.signed c true, none) := rfl
      exact hsigned hstep hrest
  · next rest =>
      obtain ⟨⟨q', n'⟩, hrest, heq⟩ := Option.map_eq_some_iff.mp h
      cases heq
      have hstep : lexStep ucd (.letter c) '+' = some (.signed c false, none) := rfl
      exact hsigned hstep hrest
  · next hminus hplus =>
      have hs : StartsNumber ucd (.letter c) c false t := by
        apply startsNumber_letter ucd hspace
        intro d hd
        cases t with
        | nil => cases hd
        | cons e rest =>
            cases hd
            exact ⟨fun he => hminus rest (by rw [he]), fun he => hplus rest (by rw [he])⟩
      exact readsNumber_unsigned ucd hs h

/-! ### A whole line -/

/-- The words among the pieces of a line. -/
def wordsOf : List Token → List Word
  | [] => []
  | .word letter value :: rest => ⟨letter, value⟩ :: wordsOf rest
  | .gap _ :: rest => wordsOf rest

/-- The pieces of a line leave no gap but white space. -/
def NoGap (pieces : List Token) : Prop := ∀ c, Token.gap c ∈ pieces → Text.isSpace c = true

/-- What follows a number when there is no gap does not continue it. -/
theorem endsNumber_of_noGap {t : Text} (hdigit : ∀ d ∈ t.head?, ucd.isDigit d = false)
    (h : NoGap (tokensFrom ucd 0 t)) :
  EndsNumber ucd t
  := by
  intro d hd
  refine ⟨hdigit d hd, ?_⟩
  rintro rfl
  cases t with
  | nil => cases hd
  | cons e rest =>
      cases hd
      have hgap : tokensFrom ucd 0 ('.' :: rest) = .gap '.' :: tokensFrom ucd 0 rest := by
        simp [tokensFrom, wordAt, isLetter]
      have := h '.' (by simp [hgap])
      exact absurd this (by decide)

/-- The automaton reads a word the pattern matches. -/
theorem lexFrom_word {c letter : Char} {rest : Text} {value : ℚ} {n : ℕ}
    (h : wordAt ucd (c :: rest) = some (letter, value, n))
    (hgap : NoGap (tokensFrom ucd 0 (rest.drop (n - 1)))) :
  lexFrom ucd .idle (c :: rest)
    = (lexFrom ucd .idle (rest.drop (n - 1))).map (⟨letter, value⟩ :: ·)
  := by
  unfold wordAt at h
  dsimp only at h
  split at h
  · next hletter =>
      obtain ⟨⟨q, m⟩, hnumber, heq⟩ := Option.map_eq_some_iff.mp h
      cases heq
      have hsplit : rest.takeWhile Text.isSpace ++ rest.dropWhile Text.isSpace = rest :=
        List.takeWhile_append_dropWhile
      have hdrop : rest.drop (1 + (rest.takeWhile Text.isSpace).length + m - 1)
          = (rest.dropWhile Text.isSpace).drop m := by
        rw [show 1 + (rest.takeWhile Text.isSpace).length + m - 1
          = (rest.takeWhile Text.isSpace).length + m by omega, ← List.drop_drop,
          Text.drop_length_takeWhile]
      rw [hdrop] at hgap ⊢
      obtain ⟨state, hholds, hlex, hdigit⟩ :=
        readsNumber_numberAt ucd (c := c) (Text.head_dropWhile Text.isSpace rest) hnumber
      have hstep : lexStep ucd .idle c = some (.letter c, none) := by
        simp [lexStep, between, hletter, isSpace_eq_false_of_isLetter hletter]
      have hblanks := lexFrom_letter_blanks ucd
        (fun d (hd : d ∈ rest.takeWhile Text.isSpace) => List.mem_takeWhile_imp hd) c
        (rest.dropWhile Text.isSpace)
      rw [hsplit] at hblanks
      rw [lexFrom_cons ucd hstep, hblanks, hlex,
        lexFrom_of_holds ucd hholds (endsNumber_of_noGap ucd hdigit hgap)]
  · cases h

/-- When the pattern leaves no gap, the automaton finds the same words. -/
theorem lexFrom_idle_eq (t : Text) (h : NoGap (tokensFrom ucd 0 t)) :
  lexFrom ucd .idle t = some (wordsOf (tokensFrom ucd 0 t))
  := by
  -- by induction on the length: a word takes several characters at once
  induction hlen : t.length using Nat.strongRecOn generalizing t with
  | ind length ih =>
      cases t with
      | nil => rfl
      | cons c rest =>
          cases hword : wordAt ucd (c :: rest) with
          | none =>
              have htok : tokensFrom ucd 0 (c :: rest) = .gap c :: tokensFrom ucd 0 rest := by
                simp [tokensFrom, hword]
              rw [htok] at h ⊢
              have hstep : lexStep ucd .idle c = some (.idle, none) := by
                simp [lexStep, between, h c (by simp)]
              rw [lexFrom_cons ucd hstep, wordsOf]
              apply ih rest.length (by simp [← hlen]) rest _ rfl
              intro d hd
              exact h d (by simp [hd])
          | some found =>
              obtain ⟨letter, value, n⟩ := found
              have htok : tokensFrom ucd 0 (c :: rest)
                  = .word letter value :: tokensFrom ucd 0 (rest.drop (n - 1)) := by
                simp [tokensFrom, hword, tokensFrom_eq_drop ucd (n - 1)]
              rw [htok] at h ⊢
              have hgap : NoGap (tokensFrom ucd 0 (rest.drop (n - 1))) :=
                fun d hd => h d (by simp [hd])
              have hshort : (rest.drop (n - 1)).length < length := by
                simp only [List.length_drop, ← hlen, List.length_cons]
                omega
              rw [lexFrom_word ucd hword hgap, ih _ hshort _ hgap rfl]
              rfl

/-- When the pattern leaves no gap, both readings of a line find the same words. -/
theorem lex_eq {line : Text} (h : NoGap (tokens ucd line)) :
  lex ucd line = some (wordsOf (tokens ucd line))
  := lexFrom_idle_eq ucd line h

/-! ### The meaning of the words -/

/-- The block the words of the static check make. -/
def blockOf (words : Words) : Block where
  codes := (words .G).toList
  feed := words .F
  x := words .X
  y := words .Y
  z := words .Z

/-- A new word of the static check is a new word of the block. -/
theorem add_blockOf {words : Words} {c : Char} {letter : WordLetter} {value : ℚ}
    (hc : WordLetter.ofChar? c.toUpper = some letter) (hnew : words letter = none) :
  (blockOf words).add ⟨c, value⟩ = some (blockOf (Function.update words letter (some value)))
  := by
  unfold WordLetter.ofChar? at hc
  split at hc
  · next h =>
      cases hc
      simp [Block.add, blockOf, h, hnew]
  split at hc
  · next h =>
      cases hc
      simp [Block.add, blockOf, h, hnew]
  split at hc
  · next h =>
      cases hc
      simp [Block.add, blockOf, h, hnew]
  split at hc
  · next h =>
      cases hc
      simp [Block.add, blockOf, h, hnew]
  split at hc
  · next h =>
      cases hc
      simp [Block.add, blockOf, h, hnew]
  · cases hc

/-- Reading a piece keeps the issues there are. -/
theorem issues_of_read {parsed : ParsedWords} {piece : Token}
    (h : (parsed.read piece).issues = []) :
  parsed.issues = []
  := by
  cases piece with
  | gap c =>
      simp only [ParsedWords.read] at h
      split at h
      · exact h
      · simp at h
  | word c value =>
      simp only [ParsedWords.read] at h
      split at h
      · simp at h
      · split at h
        · simp at h
        · exact h

/-- Reading pieces keeps the issues there are. -/
theorem issues_of_foldl_read {pieces : List Token} {parsed : ParsedWords}
    (h : (pieces.foldl ParsedWords.read parsed).issues = []) :
  parsed.issues = []
  := by
  induction pieces generalizing parsed with
  | nil => exact h
  | cons piece pieces ih => exact issues_of_read (ih h)

/-- Without an issue there is no gap, and the block of the words is the block of what the
static check understands. -/
theorem readBlock_of_issues_eq_nil {pieces : List Token} {parsed : ParsedWords}
    (h : (pieces.foldl ParsedWords.read parsed).issues = []) :
  NoGap pieces ∧
    (wordsOf pieces).foldlM Block.add (blockOf parsed.words)
      = some (blockOf (pieces.foldl ParsedWords.read parsed).words)
  := by
  induction pieces generalizing parsed with
  | nil => exact ⟨by simp [NoGap], rfl⟩
  | cons piece pieces ih =>
      have hpiece : (parsed.read piece).issues = [] := issues_of_foldl_read h
      obtain ⟨hgap, hblock⟩ := ih h
      cases piece with
      | gap c =>
          have hspace : Text.isSpace c = true := by
            by_contra hne
            simp [ParsedWords.read, hne] at hpiece
          refine ⟨?_, ?_⟩
          · intro d hd
            rcases List.mem_cons.mp hd with heq | hd
            · cases heq
              exact hspace
            · exact hgap d hd
          · simpa [wordsOf, ParsedWords.read, hspace] using hblock
      | word c value =>
          refine ⟨fun d hd => hgap d (by simpa using hd), ?_⟩
          cases hletter : WordLetter.ofChar? c.toUpper with
          | none => simp [ParsedWords.read, hletter] at hpiece
          | some letter =>
              have hnew : parsed.words letter = none := by
                by_contra hne
                have hsome := Option.isSome_iff_ne_none.mpr hne
                simp [ParsedWords.read, hletter, hsome] at hpiece
              have hread := ParsedWords.read_word hletter hnew value
              rw [hread] at hblock
              simp only [wordsOf, List.foldlM_cons, add_blockOf hletter hnew, List.foldl_cons,
                hread]
              exact hblock

/-- A line the static check has no issue with is read by the interpreter as the check
reads it. -/
theorem readBlock_lex {line : Text} (h : (parseWords ucd line).issues = []) :
  (lex ucd line).bind readBlock = some (blockOf (parseWords ucd line).words)
  := by
  obtain ⟨hgap, hblock⟩ := readBlock_of_issues_eq_nil h
  rw [lex_eq ucd hgap]
  exact hblock

end Interpreter

end DrawingMachine
