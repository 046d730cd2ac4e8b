import DrawingMachine.Base.Text

/-!
# JSON as Python writes it

JSON values as Python holds them, an integer apart from a float, and the compact text
`json.dumps` writes for them. The text of a value is scanned for its nesting depth without
parsing it: the scan of the text of a value finds exactly the depth of the value.
-/

universe u

/-- A JSON value, with floats of the type `φ`. The fields of an object are in the order of
insertion. -/
inductive PyJson (φ : Type u) where
  | null
  | bool (b : Bool)
  | int (n : Int)
  | float (x : φ)
  | str (s : Text)
  | arr (items : List (PyJson φ))
  | obj (fields : List (Text × PyJson φ))

/-- The floats of Python, as far as JSON relies on them: which of them are finite, and how
these are printed. -/
structure PyFloat (φ : Type u) where
  isFinite : φ → Bool
  repr : φ → Text
  repr_chars : ∀ x, isFinite x = true → ∀ c ∈ repr x, c ∈ "0123456789.+-e".toList

namespace PyJson

variable {φ : Type u}

/-! ### The depth of a value -/

mutual

/-- How deep the containers of a value are nested. -/
def depth : PyJson φ → Nat
  | .null => 0
  | .bool _ => 0
  | .int _ => 0
  | .float _ => 0
  | .str _ => 0
  | .arr items => depthItems items + 1
  | .obj fields => depthFields fields + 1

/-- The depth of the deepest item. -/
def depthItems : List (PyJson φ) → Nat
  | [] => 0
  | item :: items => max (depth item) (depthItems items)

/-- The depth of the deepest field. -/
def depthFields : List (Text × PyJson φ) → Nat
  | [] => 0
  | (_, value) :: fields => max (depth value) (depthFields fields)

end

/-! ### The text of a value -/

/-- A hexadecimal digit. -/
def hexDigit (n : Nat) : Char := "0123456789abcdef".toList.getD n '0'

/-- A character inside a text. -/
def escapeChar (c : Char) : Text :=
  if c = '"' then ['\\', '"']
  else if c = '\\' then ['\\', '\\']
  else if c = '\n' then ['\\', 'n']
  else if c = '\r' then ['\\', 'r']
  else if c = '\t' then ['\\', 't']
  else if c = '\x0c' then ['\\', 'f']
  else if c = '\x08' then ['\\', 'b']
  else if c.toNat < 0x20 then
    ['\\', 'u', '0', '0', hexDigit (c.toNat / 16), hexDigit (c.toNat % 16)]
  else [c]

/-- A text between quotes. -/
def quote (s : Text) : Text := '"' :: (s.flatMap escapeChar ++ ['"'])

/-- An integer in decimal notation. -/
def intText (n : Int) : Text :=
  (if n < 0 then ['-'] else []) ++ Nat.toDigits 10 n.natAbs

section Dumps

variable (float : PyFloat φ)

mutual

/-- The compact text of a value. -/
def dumps : PyJson φ → Text
  | .null => "null".toList
  | .bool true => "true".toList
  | .bool false => "false".toList
  | .int n => intText n
  | .float x => float.repr x
  | .str s => quote s
  | .arr items => '[' :: (dumpsItems true items ++ [']'])
  | .obj fields => '{' :: (dumpsFields true fields ++ ['}'])

/-- The texts of items, with commas in between. -/
def dumpsItems : Bool → List (PyJson φ) → Text
  | _, [] => []
  | first, item :: items =>
      (if first then [] else [',']) ++ dumps item ++ dumpsItems false items

/-- The texts of fields, with commas in between. -/
def dumpsFields : Bool → List (Text × PyJson φ) → Text
  | _, [] => []
  | first, (key, value) :: fields =>
      (if first then [] else [',']) ++ quote key ++ [':'] ++ dumps value ++
        dumpsFields false fields

end

mutual

/-- Every float of a value is finite. -/
def AllFinite : PyJson φ → Prop
  | .null => True
  | .bool _ => True
  | .int _ => True
  | .float x => float.isFinite x = true
  | .str _ => True
  | .arr items => AllFiniteItems items
  | .obj fields => AllFiniteFields fields

/-- Every float of a list of items is finite. -/
def AllFiniteItems : List (PyJson φ) → Prop
  | [] => True
  | item :: items => AllFinite item ∧ AllFiniteItems items

/-- Every float of the values of fields is finite. -/
def AllFiniteFields : List (Text × PyJson φ) → Prop
  | [] => True
  | (_, value) :: fields => AllFinite value ∧ AllFiniteFields fields

end

end Dumps

/-! ### The scan for the depth -/

/-- The state of the scan: the depth, whether it is inside a text, and whether the next
byte there is escaped. -/
structure Scan where
  depth : Int
  inString : Bool
  escaped : Bool
  deriving DecidableEq, Repr

/-- Scan one byte, unless it opens a container below the limit. -/
def Scan.step (limit : Nat) (s : Scan) (byte : UInt8) : Option Scan :=
  if s.inString then
    if s.escaped then some { s with escaped := false }
    else if byte = 92 then some { s with escaped := true }
    else if byte = 34 then some { s with inString := false }
    else some s
  else if byte = 34 then some { s with inString := true }
  else if byte = 123 ∨ byte = 91 then
    if s.depth + 1 > limit then none else some { s with depth := s.depth + 1 }
  else if byte = 125 ∨ byte = 93 then some { s with depth := s.depth - 1 }
  else some s

/-- Scan bytes one after the other. -/
def Scan.run (limit : Nat) (s : Scan) (bytes : List UInt8) : Option Scan :=
  bytes.foldlM (Scan.step limit) s

/-! ### Bytes of characters -/

/-- A character beyond ASCII has no byte of an ASCII character. -/
theorem le_of_mem_utf8EncodeChar {c : Char} (hc : 128 ≤ c.toNat) {byte : UInt8}
    (h : byte ∈ String.utf8EncodeChar c) :
  128 ≤ byte.toNat
  := by
  have hval : ¬ c.val.toNat ≤ 0x7f := by
    have hnat : c.val.toNat = c.toNat := rfl
    omega
  unfold String.utf8EncodeChar at h
  simp only [hval, if_false] at h
  split at h
  · simp only [List.mem_cons, List.not_mem_nil, or_false] at h
    obtain rfl | rfl := h <;> rw [UInt8.toNat_ofNat'] <;> omega
  · split at h
    · simp only [List.mem_cons, List.not_mem_nil, or_false] at h
      obtain rfl | rfl | rfl := h <;> rw [UInt8.toNat_ofNat'] <;> omega
    · simp only [List.mem_cons, List.not_mem_nil, or_false] at h
      obtain rfl | rfl | rfl | rfl := h <;> rw [UInt8.toNat_ofNat'] <;> omega

/-- An ASCII character is one byte. -/
theorem utf8EncodeChar_ascii {c : Char} (hc : c.toNat < 128) :
  String.utf8EncodeChar c = [UInt8.ofNat c.toNat]
  := by
  have hval : c.val.toNat ≤ 0x7f := by
    have hnat : c.val.toNat = c.toNat := rfl
    omega
  unfold String.utf8EncodeChar
  simp only [hval, if_true]
  rfl

/-- The byte of an ASCII character only stands for that character. -/
theorem eq_of_mem_utf8EncodeChar {c a : Char} (ha : a.toNat < 128)
    (h : UInt8.ofNat a.toNat ∈ String.utf8EncodeChar c) :
  c = a
  := by
  have htoNat : (UInt8.ofNat a.toNat).toNat = a.toNat := by
    rw [UInt8.toNat_ofNat']
    omega
  by_cases hc : c.toNat < 128
  · rw [utf8EncodeChar_ascii hc, List.mem_singleton] at h
    have hnat := congrArg UInt8.toNat h
    rw [htoNat, UInt8.toNat_ofNat'] at hnat
    apply Char.toNat_inj.mp
    omega
  · have hbyte := le_of_mem_utf8EncodeChar (by omega) h
    omega

/-- The byte of an ASCII character stands in the encoding of a text only where the
character stands in the text. -/
theorem mem_of_mem_encode {t : Text} {a : Char} (ha : a.toNat < 128)
    (h : UInt8.ofNat a.toNat ∈ Text.encode t) :
  a ∈ t
  := by
  obtain ⟨c, hc, hbyte⟩ := List.mem_flatMap.mp h
  rw [← eq_of_mem_utf8EncodeChar ha hbyte]
  apply hc

/-! ### The scan of the text of a value -/

section Scanned

variable {limit : Nat} {s : Scan}

/-- Two lists of bytes are scanned one after the other. -/
theorem Scan.run_append (a b : List UInt8) :
  Scan.run limit s (a ++ b) = (Scan.run limit s a).bind fun s' => Scan.run limit s' b
  := by
  apply List.foldlM_append

/-- Bytes that each leave the state as it is leave it as it is. -/
theorem Scan.run_eq_self {bytes : List UInt8} (h : ∀ b ∈ bytes, Scan.step limit s b = some s) :
  Scan.run limit s bytes = some s
  := by
  induction bytes with
  | nil => rfl
  | cons b bytes ih =>
      unfold Scan.run at ih ⊢
      rw [List.foldlM_cons, h b (by simp)]
      apply ih
      intro b' hb'
      apply h b' (List.mem_cons_of_mem _ hb')

/-- Outside of a text. -/
abbrev Scan.outside (depth : Int) : Scan := ⟨depth, false, false⟩

/-- Inside of a text. -/
abbrev Scan.inside (depth : Int) : Scan := ⟨depth, true, false⟩

variable {d : Int}

/-- A text without quotes and brackets. -/
def Neutral (t : Text) : Prop := ∀ c ∈ t, c ∉ ['"', '{', '}', '[', ']']

instance (t : Text) : Decidable (Neutral t) := inferInstanceAs (Decidable (∀ _ ∈ _, _))

/-- A text without quotes and brackets is passed over. -/
theorem Scan.run_neutral {t : Text} (h : Neutral t) :
  Scan.run limit (.outside d) (Text.encode t) = some (.outside d)
  := by
  apply Scan.run_eq_self
  intro b hb
  have hascii : ∀ a ∈ ['"', '{', '}', '[', ']'], a.toNat < 128 := by decide
  have hne : ∀ a ∈ ['"', '{', '}', '[', ']'], b ≠ UInt8.ofNat a.toNat := by
    rintro a ha rfl
    apply h a (mem_of_mem_encode (hascii a ha) hb) ha
  have hquote : b ≠ 34 := hne '"' (by simp)
  have hopen : b ≠ 123 := hne '{' (by simp)
  have hclose : b ≠ 125 := hne '}' (by simp)
  have hopen' : b ≠ 91 := hne '[' (by simp)
  have hclose' : b ≠ 93 := hne ']' (by simp)
  simp [Scan.step, hquote, hopen, hopen', hclose, hclose']

/-- A character that needs no escape is passed over inside of a text. -/
theorem Scan.run_inside {c : Char} (hquote : c ≠ '"') (hescape : c ≠ '\\') :
  Scan.run limit (.inside d) (String.utf8EncodeChar c) = some (.inside d)
  := by
  apply Scan.run_eq_self
  intro b hb
  have hb₁ : b ≠ 34 := by
    rintro rfl
    apply hquote (eq_of_mem_utf8EncodeChar (by decide) hb)
  have hb₂ : b ≠ 92 := by
    rintro rfl
    apply hescape (eq_of_mem_utf8EncodeChar (by decide) hb)
  simp [Scan.step, hb₁, hb₂]

/-- An escape is passed over inside of a text. -/
theorem Scan.run_escape {c : Char} (hc : c.toNat < 128) (t : Text) :
  Scan.run limit (.inside d) (Text.encode ('\\' :: c :: t)) =
    Scan.run limit (.inside d) (Text.encode t)
  := by
  rw [Text.encode_cons, Text.encode_cons, utf8EncodeChar_ascii hc,
    utf8EncodeChar_ascii (by decide)]
  simp [Scan.run, Scan.step]

/-- A hexadecimal digit needs no escape. -/
theorem hexDigit_plain (n : Nat) : hexDigit n ≠ '"' ∧ hexDigit n ≠ '\\' ∧ hexDigit n ≠ '\n' := by
  unfold hexDigit
  rw [List.getD_eq_getElem?_getD]
  cases hn : "0123456789abcdef".toList[n]? with
  | none => decide
  | some c =>
      have hc := List.mem_of_getElem? hn
      revert hc
      generalize c = c'
      revert c'
      decide

/-- An escaped character is passed over inside of a text. -/
theorem Scan.run_escapeChar (c : Char) :
  Scan.run limit (.inside d) (Text.encode (escapeChar c)) = some (.inside d)
  := by
  unfold escapeChar
  split_ifs with hquote hescape
  · apply Scan.run_escape (by decide)
  · apply Scan.run_escape (by decide)
  · apply Scan.run_escape (by decide)
  · apply Scan.run_escape (by decide)
  · apply Scan.run_escape (by decide)
  · apply Scan.run_escape (by decide)
  · apply Scan.run_escape (by decide)
  · rw [Scan.run_escape (by decide)]
    have hzero : Scan.run limit (.inside d) (String.utf8EncodeChar '0') = some (.inside d) :=
      Scan.run_inside (by decide) (by decide)
    have hhigh := hexDigit_plain (c.toNat / 16)
    have hlow := hexDigit_plain (c.toNat % 16)
    simp only [Text.encode_cons, Text.encode_nil, Scan.run_append, hzero,
      Scan.run_inside hhigh.1 hhigh.2.1, Scan.run_inside hlow.1 hlow.2.1, Option.bind_some]
    rfl
  · rw [Text.encode_cons, Text.encode_nil, List.append_nil]
    apply Scan.run_inside hquote hescape

/-- A quoted text is passed over. -/
theorem Scan.run_quote (t : Text) :
  Scan.run limit (.outside d) (Text.encode (quote t)) = some (.outside d)
  := by
  have hbody : Scan.run limit (.inside d) (Text.encode (t.flatMap escapeChar)) =
      some (.inside d) := by
    induction t with
    | nil => rfl
    | cons c t ih =>
        rw [List.flatMap_cons, Text.encode_append, Scan.run_append, Scan.run_escapeChar,
          Option.bind_some, ih]
  have hopen : Scan.run limit (.outside d) (String.utf8EncodeChar '"') = some (.inside d) := by
    rw [utf8EncodeChar_ascii (by decide)]
    rfl
  have hclose : Scan.run limit (.inside d) (Text.encode ['"']) = some (.outside d) := by
    rw [Text.encode_cons, utf8EncodeChar_ascii (by decide)]
    rfl
  rw [quote, Text.encode_cons, Scan.run_append, hopen, Option.bind_some, Text.encode_append,
    Scan.run_append, hbody, Option.bind_some, hclose]

/-- An integer in decimal notation has no quote and no bracket. -/
theorem neutral_intText (n : Int) : Neutral (intText n) := by
  have hdigits : ∀ c ∈ "-0123456789".toList, c ∉ ['"', '{', '}', '[', ']'] := by decide
  intro c hc
  apply hdigits c
  unfold intText at hc
  rw [List.mem_append] at hc
  obtain hc | hc := hc
  · split at hc
    · rw [List.mem_singleton.mp hc]
      decide
    · cases hc
  · have hdigit := Nat.isDigit_of_mem_toDigits (by decide) (by decide) hc
    have hall : ∀ n : Fin 128, (Char.ofNat n).isDigit = true →
        Char.ofNat n ∈ "-0123456789".toList := by decide
    have hlt : c.toNat < 128 := by
      simp only [Char.isDigit, Bool.and_eq_true, decide_eq_true_eq, ge_iff_le] at hdigit
      have hle := UInt32.le_iff_toNat_le.mp hdigit.2
      have hnine : ('9'.val).toNat = 57 := rfl
      have hc' : c.val.toNat = c.toNat := rfl
      omega
    have hchar := hall ⟨c.toNat, hlt⟩
    simp only [Char.ofNat_toNat] at hchar
    apply hchar hdigit

/-- A separator is passed over. -/
theorem Scan.run_separator (first : Bool) :
  Scan.run limit (.outside d) (Text.encode (if first then [] else [','])) = some (.outside d)
  := by
  apply Scan.run_neutral
  cases first <;> decide

/-- The scan of two parts at the same depth finds the deeper one. -/
theorem Scan.bind_max {d a b : Nat} {bytes : List UInt8}
    (h : Scan.run limit (.outside d) bytes =
      if d + b ≤ limit then some (.outside d) else none) :
  ((if d + a ≤ limit then some (Scan.outside d) else none).bind
      fun s => Scan.run limit s bytes) =
    if d + max a b ≤ limit then some (.outside d) else none
  := by
  by_cases ha : d + a ≤ limit
  · rw [if_pos ha, Option.bind_some, h]
    have hiff : d + b ≤ limit ↔ d + max a b ≤ limit := by omega
    simp only [hiff]
  · rw [if_neg ha, Option.bind_none, if_neg]
    omega

/-- The scan of a container goes one deeper. -/
theorem Scan.run_open {o c : Char} (ho : o = '{' ∨ o = '[') (hc : c = '}' ∨ c = ']')
    (d : Nat) (inner : Text) (n : Nat)
    (h : d + 1 ≤ limit → Scan.run limit (.outside (d + 1 : Nat)) (Text.encode inner) =
      if d + 1 + n ≤ limit then some (.outside (d + 1 : Nat)) else none) :
  Scan.run limit (.outside d) (Text.encode (o :: (inner ++ [c]))) =
    if d + (n + 1) ≤ limit then some (.outside d) else none
  := by
  have hopen : Scan.run limit (.outside d) (String.utf8EncodeChar o) =
      if d + 1 ≤ limit then some (.outside (d + 1 : Nat)) else none := by
    have hstep : Scan.step limit (.outside d) 123 =
        (if d + 1 ≤ limit then some (.outside (d + 1 : Nat)) else none) ∧
        Scan.step limit (.outside d) 91 =
          if d + 1 ≤ limit then some (.outside (d + 1 : Nat)) else none := by
      by_cases hd : d + 1 ≤ limit
      · have hgt : ¬ (d : Int) + 1 > limit := by omega
        simp [Scan.step, hd, hgt]
      · have hgt : (d : Int) + 1 > limit := by omega
        simp [Scan.step, hd, hgt]
    obtain rfl | rfl := ho
    · rw [utf8EncodeChar_ascii (by decide), ← hstep.1]
      simp [Scan.run]
    · rw [utf8EncodeChar_ascii (by decide), ← hstep.2]
      simp [Scan.run]
  have hclose : Scan.run limit (.outside (d + 1 : Nat)) (Text.encode [c]) =
      some (.outside d) := by
    obtain rfl | rfl := hc <;>
    · rw [Text.encode_cons, utf8EncodeChar_ascii (by decide)]
      simp [Scan.run, Scan.step]
  rw [Text.encode_cons, Scan.run_append, hopen, Text.encode_append]
  by_cases hd : d + 1 ≤ limit
  · rw [if_pos hd, Option.bind_some, Scan.run_append, h hd]
    have hiff : d + 1 + n ≤ limit ↔ d + (n + 1) ≤ limit := by omega
    simp only [hiff]
    split
    · rw [Option.bind_some, hclose]
    · rfl
  · rw [if_neg hd, Option.bind_none, if_neg]
    omega

variable (float : PyFloat φ)

mutual

/-- The scan of the text of a value finds its depth. -/
theorem run_dumps : (v : PyJson φ) → AllFinite float v → (d : Nat) → d ≤ limit →
    Scan.run limit (.outside d) (Text.encode (dumps float v)) =
      if d + depth v ≤ limit then some (.outside d) else none
  | .null, _, d, hd => by
      rw [dumps, Scan.run_neutral (by decide), depth, Nat.add_zero, if_pos hd]
  | .bool b, _, d, hd => by
      cases b <;> rw [dumps, Scan.run_neutral (by decide), depth, Nat.add_zero, if_pos hd]
  | .int n, _, d, hd => by
      rw [dumps, Scan.run_neutral (neutral_intText n), depth, Nat.add_zero, if_pos hd]
  | .float x, h, d, hd => by
      have hneutral : Neutral (float.repr x) := by
        have hchars : ∀ c ∈ "0123456789.+-e".toList, c ∉ ['"', '{', '}', '[', ']'] := by decide
        intro c hc
        apply hchars c (float.repr_chars x h c hc)
      rw [dumps, Scan.run_neutral hneutral, depth, Nat.add_zero, if_pos hd]
  | .str t, _, d, hd => by
      rw [dumps, Scan.run_quote, depth, Nat.add_zero, if_pos hd]
  | .arr items, h, d, hd => by
      apply Scan.run_open (.inr rfl) (.inr rfl) d (dumpsItems float true items)
      intro hd'
      apply run_dumpsItems items h (d + 1) hd' true
  | .obj fields, h, d, hd => by
      apply Scan.run_open (.inl rfl) (.inl rfl) d (dumpsFields float true fields)
      intro hd'
      apply run_dumpsFields fields h (d + 1) hd' true

/-- The scan of the texts of items finds their depth. -/
theorem run_dumpsItems : (items : List (PyJson φ)) → AllFiniteItems float items →
    (d : Nat) → d ≤ limit → (first : Bool) →
    Scan.run limit (.outside d) (Text.encode (dumpsItems float first items)) =
      if d + depthItems items ≤ limit then some (.outside d) else none
  | [], _, d, hd, first => by
      rw [dumpsItems, depthItems, Nat.add_zero, if_pos hd]
      rfl
  | item :: items, h, d, hd, first => by
      rw [dumpsItems, depthItems, Text.encode_append, Scan.run_append, Text.encode_append,
        Scan.run_append, Scan.run_separator, Option.bind_some,
        run_dumps item h.1 d hd]
      apply Scan.bind_max (run_dumpsItems items h.2 d hd false)

/-- The scan of the texts of fields finds their depth. -/
theorem run_dumpsFields : (fields : List (Text × PyJson φ)) →
    AllFiniteFields float fields → (d : Nat) → d ≤ limit → (first : Bool) →
    Scan.run limit (.outside d) (Text.encode (dumpsFields float first fields)) =
      if d + depthFields fields ≤ limit then some (.outside d) else none
  | [], _, d, hd, first => by
      rw [dumpsFields, depthFields, Nat.add_zero, if_pos hd]
      rfl
  | (key, value) :: fields, h, d, hd, first => by
      have hcolon : Scan.run limit (.outside d) (Text.encode [':']) = some (.outside d) :=
        Scan.run_neutral (by decide)
      rw [dumpsFields, depthFields]
      simp only [Text.encode_append, Scan.run_append, Scan.run_separator, Option.bind_some,
        Scan.run_quote, hcolon, run_dumps value h.1 d hd]
      apply Scan.bind_max (run_dumpsFields fields h.2 d hd false)

end

end Scanned

/-! ### Lines -/

/-- An escaped character has no line feed. -/
theorem newline_notMem_escapeChar (c : Char) : '\n' ∉ escapeChar c := by
  unfold escapeChar
  split_ifs with h₁ h₂ h₃
  · decide
  · decide
  · decide
  · decide
  · decide
  · decide
  · decide
  · have hhigh := (hexDigit_plain (c.toNat / 16)).2.2
    have hlow := (hexDigit_plain (c.toNat % 16)).2.2
    simp [hhigh.symm, hlow.symm]
  · simpa using fun h => h₃ h.symm

/-- A quoted text has no line feed. -/
theorem newline_notMem_quote (t : Text) : '\n' ∉ quote t := by
  unfold quote
  simp only [List.mem_cons, List.mem_append, List.mem_flatMap, not_or, not_exists, not_and]
  refine ⟨by decide, ?_, by decide⟩
  intro c _
  apply newline_notMem_escapeChar

/-- An integer in decimal notation has no line feed. -/
theorem newline_notMem_intText (n : Int) : '\n' ∉ intText n := by
  unfold intText
  rw [List.mem_append, not_or]
  constructor
  · split <;> decide
  · intro h
    have hdigit := Nat.isDigit_of_mem_toDigits (by decide) (by decide) h
    revert hdigit
    decide

variable (float : PyFloat φ)

mutual

/-- The text of a value has no line feed. -/
theorem newline_notMem_dumps : (v : PyJson φ) → AllFinite float v → '\n' ∉ dumps float v
  | .null, _ => by
      rw [dumps]
      decide
  | .bool b, _ => by
      cases b <;> rw [dumps] <;> decide
  | .int n, _ => by
      rw [dumps]
      apply newline_notMem_intText
  | .float x, h => by
      rw [dumps]
      intro hc
      have hchar := float.repr_chars x h _ hc
      revert hchar
      decide
  | .str t, _ => by
      rw [dumps]
      apply newline_notMem_quote
  | .arr items, h => by
      have hitems := newline_notMem_dumpsItems items h true
      rw [dumps]
      simp [hitems]
  | .obj fields, h => by
      have hfields := newline_notMem_dumpsFields fields h true
      rw [dumps]
      simp [hfields]

/-- The texts of items have no line feed. -/
theorem newline_notMem_dumpsItems : (items : List (PyJson φ)) → AllFiniteItems float items →
    (first : Bool) → '\n' ∉ dumpsItems float first items
  | [], _, first => by simp [dumpsItems]
  | item :: items, h, first => by
      have hitem := newline_notMem_dumps item h.1
      have hitems := newline_notMem_dumpsItems items h.2 false
      rw [dumpsItems]
      cases first <;> simp [hitem, hitems]

/-- The texts of fields have no line feed. -/
theorem newline_notMem_dumpsFields : (fields : List (Text × PyJson φ)) →
    AllFiniteFields float fields → (first : Bool) → '\n' ∉ dumpsFields float first fields
  | [], _, first => by simp [dumpsFields]
  | (key, value) :: fields, h, first => by
      have hkey := newline_notMem_quote key
      have hvalue := newline_notMem_dumps value h.1
      have hfields := newline_notMem_dumpsFields fields h.2 false
      rw [dumpsFields]
      cases first <;> simp [hkey, hvalue, hfields]

end

end PyJson
