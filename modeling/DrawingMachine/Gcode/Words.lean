import DrawingMachine.Base.Decimal
import DrawingMachine.Gcode.Models

/-!
# Lines and words of G-code

How the program reads a line of G-code: comments are removed, and what remains is searched
for words, a letter with a number. The search looks for the pattern
`([A-Za-z])\s*([-+]?\d*\.?\d+)` from left to right, and what no match consumes is a gap.
-/

namespace DrawingMachine

/-! ### Comments -/

/-- A line without the comments in parentheses. A parenthesis that is never closed opens
no comment. The flag says whether the scan is inside of a comment. -/
def removeParentheses : Bool → Text → Text
  | _, [] => []
  | false, c :: rest =>
      if c = '(' ∧ ')' ∈ rest then removeParentheses true rest
      else c :: removeParentheses false rest
  | true, c :: rest =>
      if c = ')' then removeParentheses false rest else removeParentheses true rest

/-- A line without its comments. -/
def stripComments (line : Text) : Text :=
  (removeParentheses false line).takeWhile (· ≠ ';')

/-- What a line has to say once comments and white space around it are gone. -/
def commandOf (rawLine : Text) : Text := Text.strip (stripComments rawLine)

/-! ### Numbers -/

section Numbers

variable (ucd : UnicodeData)

/-- The number in front of a text that has no sign, with the number of characters it takes. -/
def unsignedNumber (t : Text) : Option (ℚ × Nat) :=
  let whole := t.takeWhile ucd.isDigit
  let bare : Option (ℚ × Nat) :=
    if whole = [] then none else some (ucd.digitsValue whole, whole.length)
  match t.dropWhile ucd.isDigit with
  | '.' :: rest =>
      let fraction := rest.takeWhile ucd.isDigit
      if fraction = [] then bare
      else
        some (ucd.digitsValue whole + ucd.digitsValue fraction / 10 ^ fraction.length,
          whole.length + 1 + fraction.length)
  | _ => bare

/-- The number in front of a text, with the number of characters it takes. -/
def numberAt (t : Text) : Option (ℚ × Nat) :=
  match t with
  | '-' :: rest => (unsignedNumber ucd rest).map fun (q, n) => (-q, n + 1)
  | '+' :: rest => (unsignedNumber ucd rest).map fun (q, n) => (q, n + 1)
  | _ => unsignedNumber ucd t

/-- An ASCII letter. -/
def isLetter (c : Char) : Bool :=
  ('A'.toNat ≤ c.toNat && c.toNat ≤ 'Z'.toNat) || ('a'.toNat ≤ c.toNat && c.toNat ≤ 'z'.toNat)

/-- The word in front of a text: its letter, its number and the number of characters it
takes. -/
def wordAt (t : Text) : Option (Char × ℚ × Nat) :=
  match t with
  | [] => none
  | c :: rest =>
      if isLetter c then
        let blanks := rest.takeWhile Text.isSpace
        (numberAt ucd (rest.dropWhile Text.isSpace)).map fun (q, n) =>
          (c, q, 1 + blanks.length + n)
      else none

end Numbers

/-! ### Words -/

/-- A piece of a line: a word, or a character no word takes. -/
inductive Token where
  | word (letter : Char) (value : ℚ)
  | gap (c : Char)
  deriving DecidableEq, Repr

/-- The pieces of a line. The counter says how many characters in front are already taken
by a word. -/
def tokensFrom (ucd : UnicodeData) : Nat → Text → List Token
  | _, [] => []
  | k + 1, _ :: rest => tokensFrom ucd k rest
  | 0, c :: rest =>
      match wordAt ucd (c :: rest) with
      | some (letter, value, n) => .word letter value :: tokensFrom ucd (n - 1) rest
      | none => .gap c :: tokensFrom ucd 0 rest

/-- Characters taken by a word are skipped. -/
theorem tokensFrom_eq_drop (ucd : UnicodeData) (k : ℕ) (t : Text) :
  tokensFrom ucd k t = tokensFrom ucd 0 (t.drop k)
  := by
  induction k generalizing t with
  | zero => rfl
  | succ k ih =>
      cases t with
      | nil => simp [tokensFrom]
      | cons c rest => simpa [tokensFrom] using ih rest

/-- The pieces of a line. -/
def tokens (ucd : UnicodeData) (line : Text) : List Token := tokensFrom ucd 0 line

/-- The letters of the words a candidate may have. -/
inductive WordLetter where
  | G | X | Y | Z | F
  deriving DecidableEq, Repr

/-- The letter of a word. -/
def WordLetter.char : WordLetter → Char
  | G => 'G'
  | X => 'X'
  | Y => 'Y'
  | Z => 'Z'
  | F => 'F'

/-- The admissible letter a character stands for. -/
def WordLetter.ofChar? (c : Char) : Option WordLetter :=
  if c = 'G' then some G
  else if c = 'X' then some X
  else if c = 'Y' then some Y
  else if c = 'Z' then some Z
  else if c = 'F' then some F
  else none

/-- What is wrong with the words of a line. -/
inductive WordIssue where
  | malformed
  | duplicate (letter : WordLetter)
  | unknown (letter : Char)
  deriving DecidableEq, Repr

/-- The text of an issue. -/
def WordIssue.text : WordIssue → String
  | malformed => "MALFORMED"
  | duplicate letter => "DUPLICATE_" ++ String.singleton letter.char
  | unknown letter => String.singleton letter

/-- An issue that makes a line malformed, whatever its letters are. -/
def WordIssue.isMalformed : WordIssue → Bool
  | malformed | duplicate _ => true
  | unknown _ => false

/-- The values of the words of a line. -/
abbrev Words := WordLetter → Option ℚ

/-- A line without words. -/
def Words.empty : Words := fun _ => none

/-- The words read so far, and what was wrong with them. -/
structure ParsedWords where
  words : Words
  issues : List WordIssue

/-- Read one piece of a line. A second word with the same letter is an issue and leaves
the first one in place. -/
def ParsedWords.read (parsed : ParsedWords) : Token → ParsedWords
  | .gap c => if Text.isSpace c then parsed else { parsed with issues := .malformed :: parsed.issues }
  | .word c value =>
      match WordLetter.ofChar? c.toUpper with
      | none => { parsed with issues := .unknown c.toUpper :: parsed.issues }
      | some letter =>
          if (parsed.words letter).isSome then
            { parsed with issues := .duplicate letter :: parsed.issues }
          else
            { parsed with words := Function.update parsed.words letter (some value) }

/-- A new word with an admissible letter is read. -/
theorem ParsedWords.read_word {parsed : ParsedWords} {c : Char} {letter : WordLetter}
    (hc : WordLetter.ofChar? c.toUpper = some letter) (hnew : parsed.words letter = none)
    (value : ℚ) :
  parsed.read (.word c value)
    = { parsed with words := Function.update parsed.words letter (some value) }
  := by
  simp [read, hc, hnew]

/-- A blank between words is skipped. -/
theorem ParsedWords.read_blank (parsed : ParsedWords) : parsed.read (.gap ' ') = parsed := rfl

/-- The words of a line. -/
def parseWords (ucd : UnicodeData) (line : Text) : ParsedWords :=
  (tokens ucd line).foldl ParsedWords.read ⟨Words.empty, []⟩

/-- The texts of issues as a set, in order. -/
def issueTexts (issues : List WordIssue) : List String :=
  (issues.map WordIssue.text).dedup.mergeSort

end DrawingMachine
