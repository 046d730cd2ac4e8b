import Mathlib.Data.List.Basic
import Mathlib.Data.List.DropRight

/-!
# Texts

Unicode texts as lists of scalar values, with the operations on them that do not depend on
the version of the character database: white space, stripping, splitting into lines, and
the UTF-8 encoding. What does depend on it, the general categories and the decimal digits,
is a parameter, `UnicodeData`, with the facts about it that every version of the database
keeps.
-/

/-- A text without lone surrogates. -/
abbrev Text := List Char

namespace Text

/-- Texts are compared by their characters. -/
instance lawfulBEq : LawfulBEq (List Char) := inferInstance

-- There are finitely many characters, and a question about those of a text is not to be
-- decided by going through all of them.
instance (priority := high) {p : Char → Prop} [DecidablePred p] (t : List Char) :
    Decidable (∀ c ∈ t, p c) :=
  List.decidableBAll p t

instance (priority := high) {p : Char → Prop} [DecidablePred p] (t : List Char) :
    Decidable (∃ c ∈ t, p c) :=
  List.decidableBEx p t

/-! ### White space -/

/-- The white space characters, those of `str.isspace` and of the class `\s`. -/
def isSpace (c : Char) : Bool :=
  let n := c.toNat
  (0x09 ≤ n && n ≤ 0x0D) || (0x1C ≤ n && n ≤ 0x20) || n == 0x85 || n == 0xA0 ||
    n == 0x1680 || (0x2000 ≤ n && n ≤ 0x200A) || n == 0x2028 || n == 0x2029 ||
    n == 0x202F || n == 0x205F || n == 0x3000

/-- The characters at which `str.splitlines` ends a line. -/
def isLineBreak (c : Char) : Bool :=
  let n := c.toNat
  (0x0A ≤ n && n ≤ 0x0D) || (0x1C ≤ n && n ≤ 0x1E) || n == 0x85 ||
    n == 0x2028 || n == 0x2029

/-- A text without the white space in front of it. -/
def lstrip (t : Text) : Text := t.dropWhile isSpace

/-- A text without the white space behind it. -/
def rstrip (t : Text) : Text := t.rdropWhile isSpace

/-- A text without the white space around it. -/
def strip (t : Text) : Text := rstrip (lstrip t)

/-- What remains when the front of a text is dropped is what remains without it. -/
theorem drop_length_takeWhile (p : Char → Bool) (t : Text) :
  t.drop (t.takeWhile p).length = t.dropWhile p
  := by
  calc
    t.drop (t.takeWhile p).length
        = (t.takeWhile p ++ t.dropWhile p).drop (t.takeWhile p).length := by
          rw [List.takeWhile_append_dropWhile]
    _ = t.dropWhile p := List.drop_left

/-- What remains of a text does not start with a character that was dropped. -/
theorem head_dropWhile (p : Char → Bool) (t : Text) :
  ∀ c ∈ (t.dropWhile p).head?, p c = false
  := by
  intro c hc
  have h := List.head?_dropWhile_not p t
  rw [hc] at h
  simpa using h

/-- Stripping keeps every character that is not white space. -/
theorem mem_strip {t : Text} {c : Char} (hc : c ∈ t) (hspace : isSpace c = false) : c ∈ strip t := by
  have hl : c ∈ lstrip t := by
    have hsplit : t.takeWhile isSpace ++ t.dropWhile isSpace = t :=
      List.takeWhile_append_dropWhile
    rw [← hsplit] at hc
    rcases List.mem_append.mp hc with h | h
    · rw [List.mem_takeWhile_imp h] at hspace
      cases hspace
    · exact h
  have hsplit : rstrip (lstrip t) ++ (lstrip t).rtakeWhile isSpace = lstrip t :=
    List.rdropWhile_append_rtakeWhile
  rw [← hsplit] at hl
  rcases List.mem_append.mp hl with h | h
  · exact h
  · rw [List.mem_rtakeWhile_imp h] at hspace
    cases hspace

/-- A text of nothing but white space. -/
theorem strip_eq_nil_iff {t : Text} : strip t = [] ↔ ∀ c ∈ t, isSpace c = true := by
  constructor
  · intro h c hc
    by_contra hspace
    have := mem_strip hc (Bool.eq_false_iff.mpr hspace)
    rw [h] at this
    cases this
  · intro h
    have hl : lstrip t = [] := List.dropWhile_eq_nil_iff.mpr h
    rw [strip, hl]
    rfl

/-- A text that neither starts nor ends with white space has none around it. -/
theorem strip_eq_self {t : Text} (hhead : ∀ c ∈ t.head?, isSpace c = false)
    (hlast : ∀ c ∈ t.getLast?, isSpace c = false) :
  strip t = t
  := by
  have hl : lstrip t = t := by
    cases t with
    | nil => rfl
    | cons c rest => simp [lstrip, hhead c rfl]
  rw [strip, hl, rstrip]
  cases hlast' : t.getLast? with
  | none =>
      rw [List.getLast?_eq_none_iff.mp hlast']
      rfl
  | some c =>
      have hne : t ≠ [] := by
        rintro rfl
        cases hlast'
      apply List.rdropWhile_eq_self_iff.mpr
      intro hne
      have hc : t.getLast hne = c := by
        rw [List.getLast?_eq_some_getLast hne] at hlast'
        exact Option.some.inj hlast'
      simp [hc, hlast c hlast']

/-! ### Lines -/

/-- The lines of a text, without the characters that end them. A carriage return in front
of a line feed ends no line of its own. -/
def splitlines : Text → List Text
  | [] => []
  | c :: rest =>
      if c = '\r' ∧ rest.head? = some '\n' then
        splitlines rest
      else if isLineBreak c then
        [] :: splitlines rest
      else
        match splitlines rest with
        | [] => [[c]]
        | line :: lines => (c :: line) :: lines

/-- The lines of a text with their numbers, which start at one. -/
def numberedLines (t : Text) : List (Text × Nat) := (splitlines t).zipIdx 1

/-- A text none of whose characters ends a line. -/
def Unbroken (t : Text) : Prop := ∀ c ∈ t, isLineBreak c = false

instance (t : Text) : Decidable (Unbroken t) := inferInstanceAs (Decidable (∀ _ ∈ _, _))

@[simp] theorem unbroken_nil : Unbroken [] := by
  simp [Unbroken]

@[simp] theorem unbroken_cons {c : Char} {t : Text} :
  Unbroken (c :: t) ↔ isLineBreak c = false ∧ Unbroken t
  := by
  simp [Unbroken]

@[simp] theorem unbroken_append {s t : Text} :
  Unbroken (s ++ t) ↔ Unbroken s ∧ Unbroken t
  := by
  simp only [Unbroken, List.mem_append]
  constructor
  · intro h
    exact ⟨fun c hc => h c (.inl hc), fun c hc => h c (.inr hc)⟩
  · rintro ⟨hs, ht⟩ c (hc | hc)
    · exact hs c hc
    · exact ht c hc

/-- A carriage return is a line break. -/
theorem isLineBreak_carriageReturn : isLineBreak '\r' = true := by decide

/-- A text that is not empty has a line. -/
theorem splitlines_ne_nil {t : Text} (h : t ≠ []) : splitlines t ≠ [] := by
  induction t with
  | nil => exact absurd rfl h
  | cons c rest ih =>
      unfold splitlines
      split
      · next hcr =>
          apply ih
          rintro rfl
          simp at hcr
      · split
        · simp
        · split <;> simp

/-- The first line of a text reaches to the first line feed. -/
theorem splitlines_append_newline {line : Text} (h : Unbroken line) (rest : Text) :
  splitlines (line ++ '\n' :: rest) = line :: splitlines rest
  := by
  induction line with
  | nil =>
      have hlf : isLineBreak '\n' = true := by decide
      simp [splitlines, hlf]
  | cons c line ih =>
      obtain ⟨hc, hline⟩ := unbroken_cons.mp h
      have hne : c ≠ '\r' := by
        rintro rfl
        simp [isLineBreak_carriageReturn] at hc
      simp [splitlines, hc, hne, ih hline]

/-- A carriage return and a line feed end a line together. -/
theorem splitlines_append_crlf {line : Text} (h : Unbroken line) (rest : Text) :
  splitlines (line ++ '\r' :: '\n' :: rest) = line :: splitlines rest
  := by
  induction line with
  | nil =>
      have hlf : isLineBreak '\n' = true := by decide
      simp [splitlines, hlf]
  | cons c line ih =>
      obtain ⟨hc, hline⟩ := unbroken_cons.mp h
      have hne : c ≠ '\r' := by
        rintro rfl
        simp [isLineBreak_carriageReturn] at hc
      simp [splitlines, hc, hne, ih hline]

/-- The last line of a text may lack an end. -/
theorem splitlines_of_unbroken {line : Text} (h : Unbroken line) (hne : line ≠ []) :
  splitlines line = [line]
  := by
  induction line with
  | nil => exact absurd rfl hne
  | cons c line ih =>
      obtain ⟨hc, hline⟩ := unbroken_cons.mp h
      have hcr : c ≠ '\r' := by
        rintro rfl
        simp [isLineBreak_carriageReturn] at hc
      cases line with
      | nil => simp [splitlines, hc, hcr]
      | cons d line =>
          rw [splitlines, ih hline (by simp)]
          simp [hc, hcr]

/-- The text of lines that each end with a line feed has these lines. -/
theorem splitlines_flatMap {lines : List Text} (h : ∀ line ∈ lines, Unbroken line) :
  splitlines (lines.flatMap fun line => line ++ ['\n']) = lines
  := by
  induction lines with
  | nil => rfl
  | cons line lines ih =>
      have hline := h line (by simp)
      have hlines := ih fun l hl => h l (by simp [hl])
      simp only [List.flatMap_cons, List.append_assoc, List.singleton_append]
      rw [splitlines_append_newline hline, hlines]

/-! ### UTF-8 -/

/-- The UTF-8 encoding of a text. -/
def encode (t : Text) : List UInt8 := t.flatMap String.utf8EncodeChar

/-- The text a sequence of bytes encodes, if it is strict UTF-8. -/
def decode? (bytes : List UInt8) : Option Text :=
  bytes.toByteArray.utf8Decode?.map Array.toList

@[simp] theorem encode_nil : encode [] = [] := rfl

@[simp] theorem encode_append (s t : Text) : encode (s ++ t) = encode s ++ encode t := by
  simp [encode]

@[simp] theorem encode_cons (c : Char) (t : Text) :
  encode (c :: t) = String.utf8EncodeChar c ++ encode t
  := by
  simp [encode]

/-- The bytes of a text are the bytes of the encoding in the standard library. -/
theorem encode_toByteArray (t : Text) : (encode t).toByteArray = t.utf8Encode := rfl

/-- Bytes decode to the text they are the encoding of, and to no other. -/
theorem decode?_eq_some_iff {bytes : List UInt8} {t : Text} :
  decode? bytes = some t ↔ encode t = bytes
  := by
  constructor
  · intro h
    obtain ⟨chars, hc, rfl⟩ := Option.map_eq_some_iff.mp h
    have hs : bytes.toByteArray.utf8Decode?.isSome := by simp [hc]
    have he := ByteArray.utf8Encode_get_utf8Decode? (h := hs)
    simp only [hc, Option.get_some] at he
    rw [← encode_toByteArray] at he
    have := congrArg (fun b : ByteArray => b.data.toList) he
    simpa using this
  · rintro rfl
    rw [decode?, encode_toByteArray, List.utf8Decode?_utf8Encode]
    simp

end Text

/-! ### The character database -/

/-- The part of the character database that depends on its version: the general category
of a character, and the value of a decimal digit. -/
structure UnicodeData where
  category : Char → String
  decimal : Char → Option Nat
  /-- The control characters are the characters of the category `Cc`. -/
  category_control : ∀ c : Char, c.toNat < 0x20 ∨ (0x7F ≤ c.toNat ∧ c.toNat ≤ 0x9F) →
    category c = "Cc"
  /-- The category of the line separator. -/
  category_lineSeparator : ∀ c : Char, c.toNat = 0x2028 → category c = "Zl"
  /-- The category of the paragraph separator. -/
  category_paragraphSeparator : ∀ c : Char, c.toNat = 0x2029 → category c = "Zp"
  /-- The decimal digits among the ASCII characters. -/
  decimal_ascii : ∀ c : Char, c.toNat < 128 →
    decimal c = if '0'.toNat ≤ c.toNat ∧ c.toNat ≤ '9'.toNat then some (c.toNat - '0'.toNat) else none
  /-- A digit stands for a number below ten. -/
  decimal_lt : ∀ c d, decimal c = some d → d < 10
  /-- White space is not a digit. -/
  decimal_space : ∀ c, Text.isSpace c = true → decimal c = none

namespace UnicodeData

variable (ucd : UnicodeData)

/-- A decimal digit, a character of the class `\d`. -/
def isDigit (c : Char) : Bool := (ucd.decimal c).isSome

/-- The database restricted to the ASCII characters and the separators. -/
def ascii : UnicodeData where
  category c :=
    if c.toNat < 0x20 ∨ (0x7F ≤ c.toNat ∧ c.toNat ≤ 0x9F) then "Cc"
    else if c.toNat = 0x2028 then "Zl"
    else if c.toNat = 0x2029 then "Zp"
    else "Lo"
  decimal c :=
    if '0'.toNat ≤ c.toNat ∧ c.toNat ≤ '9'.toNat then some (c.toNat - '0'.toNat) else none
  category_control c h := by simp [h]
  category_lineSeparator c h := by simp [h]
  category_paragraphSeparator c h := by simp [h]
  decimal_ascii c _ := rfl
  decimal_lt c d h := by
    simp only [Option.ite_none_right_eq_some, Option.some.injEq] at h
    have : '0'.toNat = 48 := rfl
    have : '9'.toNat = 57 := rfl
    omega
  decimal_space c h := by
    simp only [Text.isSpace, Bool.or_eq_true, Bool.and_eq_true, decide_eq_true_eq,
      beq_iff_eq] at h
    have : '0'.toNat = 48 := rfl
    have : '9'.toNat = 57 := rfl
    simp only [ite_eq_right_iff]
    omega

end UnicodeData
