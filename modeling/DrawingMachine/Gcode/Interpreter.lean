import DrawingMachine.Gcode.StaticCheck

/-!
# A G-code interpreter

What a controller does with a text: an interpreter of its own, which shares nothing with
the static check but the character classes. A line is stripped of its comments and cut
into words by an automaton that reads it character by character, the words are collected
into a block, and the block is executed. Units, distance mode and motion are modal; a line
that cannot be read, or that has a code the interpreter does not know, stops it.
-/

namespace DrawingMachine

namespace Interpreter

/-! ### From a line to words -/

/-- The part of a line that is not a comment. A comment in parentheses that is never
closed cannot be read. The flag says whether the scan is inside of a comment. -/
def codeOf : Bool → Text → Option Text
  | false, [] => some []
  | true, [] => none
  | false, c :: rest =>
      if c = ';' then some []
      else if c = '(' then codeOf true rest
      else (codeOf false rest).map (c :: ·)
  | true, c :: rest => if c = ')' then codeOf false rest else codeOf true rest

/-- A word: a letter and a number. -/
structure Word where
  letter : Char
  value : ℚ
  deriving DecidableEq, Repr

/-- The state of the automaton that cuts a line into words. -/
inductive LexState where
  /-- Between words. -/
  | idle
  /-- A letter was read, but no part of its number. -/
  | letter (c : Char)
  /-- A sign was read behind the letter. -/
  | signed (c : Char) (negative : Bool)
  /-- Digits in front of the decimal point were read. -/
  | whole (c : Char) (negative : Bool) (n : Nat)
  /-- The decimal point was read, but no digit behind it. -/
  | point (c : Char) (negative : Bool) (n : Nat)
  /-- Digits behind the decimal point were read, `k` of them. -/
  | fraction (c : Char) (negative : Bool) (n k : Nat)
  deriving DecidableEq, Repr

/-- The word of a number with `k` decimals. -/
def wordOf (c : Char) (negative : Bool) (n k : Nat) : Word :=
  ⟨c, if negative then -(n / 10 ^ k) else n / 10 ^ k⟩

section Lexer

variable (ucd : UnicodeData)

/-- Start the number of a word: at its digits or at its decimal point. -/
def startNumber (c : Char) (negative : Bool) (d : Char) : Option LexState :=
  if d = '.' then some (.point c negative 0)
  else (ucd.decimal d).map (.whole c negative ·)

/-- Between words: white space is skipped, and a letter starts a word. -/
def between (d : Char) : Option LexState :=
  if Text.isSpace d then some .idle
  else if isLetter d then some (.letter d)
  else none

/-- Read one character. The result has the word that ends before it, if one does. -/
def lexStep (state : LexState) (d : Char) : Option (LexState × Option Word) :=
  match state with
  | .idle => (between d).map (·, none)
  | .letter c =>
      if Text.isSpace d then some (.letter c, none)
      else if d = '-' then some (.signed c true, none)
      else if d = '+' then some (.signed c false, none)
      else (startNumber ucd c false d).map (·, none)
  | .signed c negative => (startNumber ucd c negative d).map (·, none)
  | .whole c negative n =>
      match ucd.decimal d with
      | some k => some (.whole c negative (10 * n + k), none)
      | none =>
          if d = '.' then some (.point c negative n, none)
          else (between d).map (·, some (wordOf c negative n 0))
  | .point c negative n =>
      (ucd.decimal d).map fun k => (.fraction c negative (10 * n + k) 1, none)
  | .fraction c negative n k =>
      match ucd.decimal d with
      | some j => some (.fraction c negative (10 * n + j) (k + 1), none)
      | none => (between d).map (·, some (wordOf c negative n k))

/-- The words a line ends with: it may end between words, or behind a digit. -/
def lexEnd : LexState → Option (List Word)
  | .idle => some []
  | .whole c negative n => some [wordOf c negative n 0]
  | .fraction c negative n k => some [wordOf c negative n k]
  | .letter _ | .signed _ _ | .point _ _ _ => none

/-- The words of a line, from a state of the automaton on. -/
def lexFrom : LexState → Text → Option (List Word)
  | state, [] => lexEnd state
  | state, d :: rest => do
      let (state, word) ← lexStep ucd state d
      let words ← lexFrom state rest
      return word.toList ++ words

/-- The words of a line. -/
def lex (line : Text) : Option (List Word) := lexFrom ucd .idle line

end Lexer

/-! ### From words to a block -/

/-- The words of a line by their meaning. -/
structure Block where
  codes : List ℚ
  feed : Option ℚ
  x : Option ℚ
  y : Option ℚ
  z : Option ℚ
  deriving DecidableEq, Repr

/-- A block without words. -/
def Block.empty : Block := ⟨[], none, none, none, none⟩

/-- Add a word to a block. A line may have several `G` words, but at most one for the feed
and for each axis. -/
def Block.add (block : Block) (word : Word) : Option Block :=
  match word.letter.toUpper, block with
  | 'G', _ => some { block with codes := block.codes ++ [word.value] }
  | 'F', ⟨codes, none, x, y, z⟩ => some ⟨codes, some word.value, x, y, z⟩
  | 'X', ⟨codes, feed, none, y, z⟩ => some ⟨codes, feed, some word.value, y, z⟩
  | 'Y', ⟨codes, feed, x, none, z⟩ => some ⟨codes, feed, x, some word.value, z⟩
  | 'Z', ⟨codes, feed, x, y, none⟩ => some ⟨codes, feed, x, y, some word.value⟩
  | _, _ => none

/-- The block of a list of words. -/
def readBlock (words : List Word) : Option Block := words.foldlM Block.add .empty

/-! ### The execution of a block -/

/-- A position of the tool. -/
structure Position where
  x : ℚ
  y : ℚ
  z : ℚ
  deriving DecidableEq, Repr

/-- The position in the drawing plane. -/
def Position.plane (p : Position) : Point := ⟨p.x, p.y⟩

/-- The state of the controller. -/
structure Controller where
  position : Position
  motion : Motion
  inches : Bool
  incremental : Bool
  workCoordinate : ℤ
  deriving DecidableEq, Repr

/-- The controller at the start of a text: millimetres, absolute coordinates. -/
def Controller.at (position : Position) : Controller where
  position := position
  motion := .rapid
  inches := false
  incremental := false
  workCoordinate := 54

/-- A motion the controller makes: its mode, its ends, and the values of its axis words. -/
structure Move where
  motion : Motion
  start : Position
  stop : Position
  x : Option ℚ
  y : Option ℚ
  z : Option ℚ
  deriving DecidableEq, Repr

/-- The motion in the drawing plane. -/
def Move.segment (m : Move) : Segment := ⟨m.start.plane, m.stop.plane⟩

/-- What the controller does: it obeys a code, sets a feed, or moves. -/
inductive Event where
  | code (g : ℤ)
  | feed (f : ℚ)
  | move (m : Move)
  deriving DecidableEq, Repr

/-- Obey a code. -/
def Controller.obey (c : Controller) (code : ℚ) : Option (Controller × Event) :=
  if code.den ≠ 1 then none
  else
    let g := code.num
    if g = 0 then some ({ c with motion := .rapid }, .code g)
    else if g = 1 then some ({ c with motion := .linear }, .code g)
    else if g = 20 then some ({ c with inches := true }, .code g)
    else if g = 21 then some ({ c with inches := false }, .code g)
    else if g = 90 then some ({ c with incremental := false }, .code g)
    else if g = 91 then some ({ c with incremental := true }, .code g)
    else if 54 ≤ g ∧ g ≤ 59 then some ({ c with workCoordinate := g }, .code g)
    else none

/-- Obey codes one after the other. -/
def Controller.obeyAll (c : Controller) : List ℚ → Option (Controller × List Event)
  | [] => some (c, [])
  | code :: codes => do
      let (c, event) ← c.obey code
      let (c, events) ← c.obeyAll codes
      return (c, event :: events)

/-- A length of the text in millimetres. -/
def Controller.millimetres (c : Controller) (length : ℚ) : ℚ :=
  if c.inches then 254 / 10 * length else length

/-- The coordinate an axis word leads to from `current`. -/
def Controller.target (c : Controller) (current : ℚ) : Option ℚ → ℚ
  | none => current
  | some value =>
      if c.incremental then current + c.millimetres value else c.millimetres value

/-- Set the feed of a block. -/
def Controller.setFeed (c : Controller) (block : Block) : List Event :=
  (block.feed.map fun f => Event.feed (c.millimetres f)).toList

/-- Make the motion of a block: one motion, if there is an axis word. -/
def Controller.move (c : Controller) (block : Block) : Controller × List Event :=
  if block.x.isSome || block.y.isSome || block.z.isSome then
    let stop : Position :=
      ⟨c.target c.position.x block.x, c.target c.position.y block.y,
        c.target c.position.z block.z⟩
    ({ c with position := stop },
      [.move ⟨c.motion, c.position, stop, block.x, block.y, block.z⟩])
  else
    (c, [])

/-- Execute a block: first its codes, then the feed, then the motion. -/
def Controller.execute (c : Controller) (block : Block) : Option (Controller × List Event) := do
  let (c, codes) ← c.obeyAll block.codes
  let (moved, moves) := c.move block
  return (moved, codes ++ c.setFeed block ++ moves)

/-! ### The execution of a text -/

/-- Execute a line. A line without a command does nothing. -/
def executeLine (ucd : UnicodeData) (c : Controller) (rawLine : Text) :
    Option (Controller × List Event) := do
  let code ← codeOf false rawLine
  let line := Text.strip code
  if line = [] then
    return (c, [])
  let words ← lex ucd line
  let block ← readBlock words
  c.execute block

/-- Execute lines one after the other, and collect what the controller does. -/
def executeLines (ucd : UnicodeData) (c : Controller) :
    List Text → Option (Controller × List Event)
  | [] => some (c, [])
  | line :: lines => do
      let (c, events) ← executeLine ucd c line
      let (c, events') ← executeLines ucd c lines
      return (c, events ++ events')

/-- Execute a text from a position of the tool. -/
def execute (ucd : UnicodeData) (start : Position) (gcode : Text) :
    Option (Controller × List Event) :=
  executeLines ucd (.at start) (Text.splitlines gcode)

/-! ### Reading what the static check reads -/

/-- The comments the interpreter removes are those the static check removes, unless a
parenthesis is left over. -/
theorem codeOf_eq (line : Text) :
    ('(' ∉ (removeParentheses false line).takeWhile (· ≠ ';') →
      codeOf false line = some ((removeParentheses false line).takeWhile (· ≠ ';'))) ∧
    (')' ∈ line → '(' ∉ (removeParentheses true line).takeWhile (· ≠ ';') →
      codeOf true line = some ((removeParentheses true line).takeWhile (· ≠ ';')))
  := by
  induction line with
  | nil => simp [removeParentheses, codeOf]
  | cons c rest ih =>
      constructor
      · intro h
        by_cases hsemi : c = ';'
        · subst hsemi
          simp [removeParentheses, codeOf]
        by_cases hopen : c = '('
        · subst hopen
          by_cases hclose : ')' ∈ rest
          · simp only [removeParentheses, hclose, and_self, if_true] at h ⊢
            simpa [codeOf] using ih.2 hclose h
          · simp [removeParentheses, hclose] at h
        · simp [removeParentheses, codeOf, hsemi, hopen] at h ⊢
          simpa using ih.1 (by simpa using h.2)
      · intro hmem h
        by_cases hclose : c = ')'
        · subst hclose
          simp only [removeParentheses, if_true] at h ⊢
          simpa [codeOf] using ih.1 h
        · have hrest : ')' ∈ rest := by simpa [Ne.symm hclose] using hmem
          simp only [removeParentheses, hclose, if_false] at h ⊢
          simpa [codeOf, hclose] using ih.2 hrest h

/-- A line whose command has no open parenthesis is read as the static check reads it. -/
theorem codeOf_eq_stripComments {line : Text} (h : '(' ∉ stripComments line) :
  codeOf false line = some (stripComments line)
  := (codeOf_eq line).1 h

end Interpreter

end DrawingMachine
