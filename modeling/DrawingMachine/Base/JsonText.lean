import DrawingMachine.Base.PyJson

/-!
# The texts of JSON

The grammar of JSON: which texts are JSON texts, and how the containers of such a text are
nested. The scan for the depth finds the depth of every JSON text, whatever stands between its
quotes.
-/

universe u

/-- The syntax of a JSON text: literals, numbers and strings as they are written. -/
inductive JsonTree where
  | literal (text : Text)
  | number (text : Text)
  | string (text : Text)
  | array (items : List JsonTree)
  | object (fields : List (Text × JsonTree))

namespace JsonTree

mutual

/-- How deep the containers are nested. -/
def depth : JsonTree → ℕ
  | .literal _ => 0
  | .number _ => 0
  | .string _ => 0
  | .array items => depthItems items + 1
  | .object fields => depthFields fields + 1

/-- The depth of the deepest item. -/
def depthItems : List JsonTree → ℕ
  | [] => 0
  | item :: items => max (depth item) (depthItems items)

/-- The depth of the deepest field. -/
def depthFields : List (Text × JsonTree) → ℕ
  | [] => 0
  | (_, value) :: fields => max (depth value) (depthFields fields)

end

end JsonTree

namespace JsonText

/-! ### Characters -/

/-- The white space between the tokens. -/
def whiteSpace : List Char := [' ', '\t', '\n', '\r']

/-- A text of white space. -/
def Blank (t : Text) : Prop := ∀ c ∈ t, c ∈ whiteSpace

/-- The decimal digits. -/
def digits : List Char := "0123456789".toList

/-- The hexadecimal digits. -/
def hexDigits : List Char := "0123456789abcdefABCDEF".toList

/-- A text of decimal digits. -/
def Digits (t : Text) : Prop := ∀ c ∈ t, c ∈ digits

/-- The characters that stand for themselves between quotes. -/
def IsPlain (c : Char) : Prop := ¬ c < ' ' ∧ c ≠ '"' ∧ c ≠ '\\'

/-- The characters that are escaped by themselves. -/
def escapes : List Char := "\"\\/bfnrt".toList

/-- The literals. -/
def literals : List Text := ["null".toList, "true".toList, "false".toList]

/-! ### Strings -/

/-- A place between quotes: between two characters, behind a backslash, or before the last
`n + 1` digits of a code. -/
inductive InString where
  | plain
  | escape
  | code (n : ℕ)

/-- What may stand between a place and the quote at the end. -/
inductive StringRest : InString → Text → Prop where
  | nil : StringRest .plain []
  | plain {c : Char} {t : Text} : IsPlain c → StringRest .plain t → StringRest .plain (c :: t)
  | backslash {t : Text} : StringRest .escape t → StringRest .plain ('\\' :: t)
  | escape {c : Char} {t : Text} :
      c ∈ escapes → StringRest .plain t → StringRest .escape (c :: t)
  | code {t : Text} : StringRest (.code 3) t → StringRest .escape ('u' :: t)
  | digit {c : Char} {n : ℕ} {t : Text} :
      c ∈ hexDigits → StringRest (.code n) t → StringRest (.code (n + 1)) (c :: t)
  | lastDigit {c : Char} {t : Text} :
      c ∈ hexDigits → StringRest .plain t → StringRest (.code 0) (c :: t)

/-! ### Numbers -/

/-- The fraction of a number. -/
def IsFraction (t : Text) : Prop := t = [] ∨ ∃ ds, t = '.' :: ds ∧ ds ≠ [] ∧ Digits ds

/-- The exponent of a number. -/
def IsExponent (t : Text) : Prop :=
  t = [] ∨ ∃ e sign ds, t = e :: (sign ++ ds) ∧ (e = 'e' ∨ e = 'E') ∧
    (sign = [] ∨ sign = ['+'] ∨ sign = ['-']) ∧ ds ≠ [] ∧ Digits ds

/-- The integer part of a number. -/
def IsWhole (t : Text) : Prop :=
  t = ['0'] ∨ ∃ d ds, t = d :: ds ∧ d ∈ digits ∧ d ≠ '0' ∧ Digits ds

/-- A number. -/
def IsNumber (t : Text) : Prop :=
  ∃ sign whole fraction exponent, t = sign ++ (whole ++ (fraction ++ exponent)) ∧
    (sign = [] ∨ sign = ['-']) ∧ IsWhole whole ∧ IsFraction fraction ∧ IsExponent exponent

/-! ### Values -/

mutual

/-- The text of a value. -/
inductive IsValue : Text → JsonTree → Prop where
  | literal {t : Text} : t ∈ literals → IsValue t (.literal t)
  | number {t : Text} : IsNumber t → IsValue t (.number t)
  | string {t : Text} : StringRest .plain t → IsValue ('"' :: (t ++ ['"'])) (.string t)
  | emptyArray {w : Text} : Blank w → IsValue ('[' :: (w ++ [']'])) (.array [])
  | array {w t more : Text} {v : JsonTree} {vs : List JsonTree} :
      Blank w → IsValue t v → IsMoreItems more vs →
      IsValue ('[' :: (w ++ (t ++ (more ++ [']'])))) (.array (v :: vs))
  | emptyObject {w : Text} : Blank w → IsValue ('{' :: (w ++ ['}'])) (.object [])
  | object {t more : Text} {field : Text × JsonTree} {fields : List (Text × JsonTree)} :
      IsField t field → IsMoreFields more fields →
      IsValue ('{' :: (t ++ (more ++ ['}']))) (.object (field :: fields))

/-- The text of the items behind an item, up to the bracket. -/
inductive IsMoreItems : Text → List JsonTree → Prop where
  | done {w : Text} : Blank w → IsMoreItems w []
  | item {w w' t more : Text} {v : JsonTree} {vs : List JsonTree} :
      Blank w → Blank w' → IsValue t v → IsMoreItems more vs →
      IsMoreItems (w ++ ',' :: (w' ++ (t ++ more))) (v :: vs)

/-- The text of a field, with the white space before it. -/
inductive IsField : Text → Text × JsonTree → Prop where
  | field {w key w' w'' t : Text} {v : JsonTree} :
      Blank w → StringRest .plain key → Blank w' → Blank w'' → IsValue t v →
      IsField (w ++ '"' :: (key ++ '"' :: (w' ++ ':' :: (w'' ++ t)))) (key, v)

/-- The text of the fields behind a field, up to the bracket. -/
inductive IsMoreFields : Text → List (Text × JsonTree) → Prop where
  | done {w : Text} : Blank w → IsMoreFields w []
  | field {w t more : Text} {field : Text × JsonTree} {fields : List (Text × JsonTree)} :
      Blank w → IsField t field → IsMoreFields more fields →
      IsMoreFields (w ++ ',' :: (t ++ more)) (field :: fields)

end

/-- A JSON text: a value with white space around it. -/
def IsDocument (t : Text) (v : JsonTree) : Prop :=
  ∃ w u w', Blank w ∧ IsValue u v ∧ Blank w' ∧ t = w ++ (u ++ w')

/-! ### The scan of a JSON text -/

open PyJson

section Scanned

variable {limit : ℕ} {d : ℤ}

theorem neutral_of_blank {t : Text} (h : Blank t) : Neutral t := by
  have hall : ∀ c ∈ whiteSpace, c ∉ ['"', '{', '}', '[', ']'] := by decide
  exact fun c hc => hall c (h c hc)

theorem neutral_of_digits {t : Text} (h : Digits t) : Neutral t := by
  have hall : ∀ c ∈ digits, c ∉ ['"', '{', '}', '[', ']'] := by decide
  exact fun c hc => hall c (h c hc)

theorem neutral_append {t u : Text} (ht : Neutral t) (hu : Neutral u) : Neutral (t ++ u) := by
  intro c hc
  rcases List.mem_append.mp hc with hc | hc
  · exact ht c hc
  · exact hu c hc

theorem neutral_cons {c : Char} {t : Text} (hc : c ∉ ['"', '{', '}', '[', ']'])
    (ht : Neutral t) :
  Neutral (c :: t) := neutral_append (t := [c]) (by simpa [Neutral] using hc) ht

/-- A number has no quote and no bracket. -/
theorem neutral_of_isNumber {t : Text} (h : IsNumber t) : Neutral t := by
  obtain ⟨sign, whole, fraction, exponent, rfl, hsign, hwhole, hfraction, hexponent⟩ := h
  have hdigit : ∀ c ∈ digits, c ∉ ['"', '{', '}', '[', ']'] := by decide
  apply neutral_append
  · rcases hsign with rfl | rfl <;> decide
  apply neutral_append
  · rcases hwhole with rfl | ⟨c, ds, rfl, hc, -, hds⟩
    · decide
    · exact neutral_cons (hdigit c hc) (neutral_of_digits hds)
  apply neutral_append
  · rcases hfraction with rfl | ⟨ds, rfl, -, hds⟩
    · decide
    · exact neutral_cons (by decide) (neutral_of_digits hds)
  · rcases hexponent with rfl | ⟨e, s, ds, rfl, he, hs, -, hds⟩
    · decide
    · apply neutral_cons
      · rcases he with rfl | rfl <;> decide
      apply neutral_append _ (neutral_of_digits hds)
      rcases hs with rfl | rfl | rfl <;> decide

/-- The state of the scan at a place between quotes. -/
def scanAt (d : ℤ) : InString → Scan
  | .plain => .inside d
  | .escape => ⟨d, true, true⟩
  | .code _ => .inside d

/-- What stands between a place and the quote is passed over. -/
theorem run_stringRest {place : InString} {t : Text} (h : StringRest place t) :
  Scan.run limit (scanAt d place) (Text.encode t) = some (.inside d)
  := by
  induction h with
  | nil => rfl
  | plain hc _ ih =>
      rw [Text.encode_cons, Scan.run_append]
      simp only [scanAt] at ih ⊢
      rw [Scan.run_inside hc.2.1 hc.2.2, Option.bind_some, ih]
  | backslash _ ih =>
      rw [Text.encode_cons, utf8EncodeChar_ascii (by decide), Scan.run_append, ← ih]
      rfl
  | escape hc _ ih =>
      have hascii : ∀ c ∈ escapes, c.toNat < 128 := by decide
      rw [Text.encode_cons, utf8EncodeChar_ascii (hascii _ hc), Scan.run_append, ← ih]
      rfl
  | code _ ih =>
      rw [Text.encode_cons, utf8EncodeChar_ascii (by decide), Scan.run_append, ← ih]
      rfl
  | digit hc _ ih | lastDigit hc _ ih =>
      have hplain : ∀ c ∈ hexDigits, c ≠ '"' ∧ c ≠ '\\' := by decide
      obtain ⟨hquote, hescape⟩ := hplain _ hc
      rw [Text.encode_cons, Scan.run_append]
      simp only [scanAt] at ih ⊢
      rw [Scan.run_inside hquote hescape, Option.bind_some, ih]

/-- A string between its quotes is passed over. -/
theorem run_string {t : Text} (h : StringRest .plain t) (rest : Text) :
  Scan.run limit (.outside d) (Text.encode ('"' :: (t ++ '"' :: rest))) =
    Scan.run limit (.outside d) (Text.encode rest)
  := by
  have hopen : Scan.run limit (.outside d) (String.utf8EncodeChar '"') = some (.inside d) := by
    rw [utf8EncodeChar_ascii (by decide)]
    rfl
  have hclose : Scan.run limit (.inside d) (String.utf8EncodeChar '"') = some (.outside d) := by
    rw [utf8EncodeChar_ascii (by decide)]
    rfl
  have hbody : Scan.run limit (.inside d) (Text.encode t) = some (.inside d) := run_stringRest h
  rw [Text.encode_cons, Scan.run_append, hopen, Option.bind_some, Text.encode_append,
    Scan.run_append, hbody, Option.bind_some, Text.encode_cons, Scan.run_append, hclose,
    Option.bind_some]

/-- White space is passed over. -/
theorem run_blank {w : Text} (h : Blank w) (rest : Text) :
  Scan.run limit (.outside d) (Text.encode (w ++ rest)) =
    Scan.run limit (.outside d) (Text.encode rest)
  := by
  rw [Text.encode_append, Scan.run_append, Scan.run_neutral (neutral_of_blank h),
    Option.bind_some]

/-- A comma or a colon is passed over. -/
theorem run_token {c : Char} (hc : c = ',' ∨ c = ':') (rest : Text) :
  Scan.run limit (.outside d) (Text.encode (c :: rest)) =
    Scan.run limit (.outside d) (Text.encode rest)
  := by
  have hneutral : Neutral [c] := by
    rcases hc with rfl | rfl <;> decide
  rw [← List.singleton_append, Text.encode_append, Scan.run_append, Scan.run_neutral hneutral,
    Option.bind_some]

end Scanned

section Depth

variable {limit : ℕ}

mutual

/-- The scan of the text of a value finds its depth. -/
theorem run_value : {t : Text} → {v : JsonTree} → IsValue t v → (d : ℕ) → d ≤ limit →
    Scan.run limit (.outside d) (Text.encode t) =
      if d + v.depth ≤ limit then some (.outside d) else none
  | t, _, .literal h, d, hd => by
      have hneutral : ∀ t ∈ literals, Neutral t := by decide
      rw [Scan.run_neutral (hneutral t h), JsonTree.depth, Nat.add_zero, if_pos hd]
  | _, _, .number h, d, hd => by
      rw [Scan.run_neutral (neutral_of_isNumber h), JsonTree.depth, Nat.add_zero, if_pos hd]
  | _, _, .string h, d, hd => by
      rw [run_string h, JsonTree.depth, Nat.add_zero, if_pos hd]
      rfl
  | _, _, .emptyArray hw, d, hd => by
      apply Scan.run_open (.inr rfl) (.inr rfl) d _ 0
      intro hd'
      rw [Scan.run_neutral (neutral_of_blank hw), Nat.add_zero, if_pos hd']
  | _, _, @IsValue.array w t more v vs hw hv hmore, d, hd => by
      have heq : '[' :: (w ++ (t ++ (more ++ [']']))) = '[' :: ((w ++ (t ++ more)) ++ [']']) := by
        simp
      rw [heq]
      apply Scan.run_open (.inr rfl) (.inr rfl) d _ (JsonTree.depthItems (v :: vs))
      intro hd'
      rw [run_blank hw, Text.encode_append, Scan.run_append, run_value hv (d + 1) hd']
      apply Scan.bind_max (run_moreItems hmore (d + 1) hd')
  | _, _, .emptyObject hw, d, hd => by
      apply Scan.run_open (.inl rfl) (.inl rfl) d _ 0
      intro hd'
      rw [Scan.run_neutral (neutral_of_blank hw), Nat.add_zero, if_pos hd']
  | _, _, @IsValue.object t more field fields hfield hmore, d, hd => by
      have heq : '{' :: (t ++ (more ++ ['}'])) = '{' :: ((t ++ more) ++ ['}']) := by simp
      rw [heq]
      apply Scan.run_open (.inl rfl) (.inl rfl) d _ (JsonTree.depthFields (field :: fields))
      intro hd'
      rw [Text.encode_append, Scan.run_append, run_field hfield (d + 1) hd']
      apply Scan.bind_max (run_moreFields hmore (d + 1) hd')

/-- The scan of the text of items finds their depth. -/
theorem run_moreItems : {t : Text} → {vs : List JsonTree} → IsMoreItems t vs → (d : ℕ) →
    d ≤ limit →
    Scan.run limit (.outside d) (Text.encode t) =
      if d + JsonTree.depthItems vs ≤ limit then some (.outside d) else none
  | _, _, .done hw, d, hd => by
      rw [Scan.run_neutral (neutral_of_blank hw), JsonTree.depthItems, Nat.add_zero, if_pos hd]
  | _, _, .item hw hw' hv hmore, d, hd => by
      rw [run_blank hw, run_token (.inl rfl), run_blank hw', Text.encode_append, Scan.run_append,
        run_value hv d hd]
      apply Scan.bind_max (run_moreItems hmore d hd)

/-- The scan of the text of a field finds its depth. -/
theorem run_field : {t : Text} → {field : Text × JsonTree} → IsField t field → (d : ℕ) →
    d ≤ limit →
    Scan.run limit (.outside d) (Text.encode t) =
      if d + field.2.depth ≤ limit then some (.outside d) else none
  | _, _, .field hw hkey hw' hw'' hv, d, hd => by
      rw [run_blank hw, run_string hkey, run_blank hw', run_token (.inr rfl), run_blank hw'',
        run_value hv d hd]

/-- The scan of the text of fields finds their depth. -/
theorem run_moreFields : {t : Text} → {fields : List (Text × JsonTree)} →
    IsMoreFields t fields → (d : ℕ) → d ≤ limit →
    Scan.run limit (.outside d) (Text.encode t) =
      if d + JsonTree.depthFields fields ≤ limit then some (.outside d) else none
  | _, _, .done hw, d, hd => by
      rw [Scan.run_neutral (neutral_of_blank hw), JsonTree.depthFields, Nat.add_zero, if_pos hd]
  | _, _, .field hw hfield hmore, d, hd => by
      rw [run_blank hw, run_token (.inl rfl), Text.encode_append, Scan.run_append,
        run_field hfield d hd]
      apply Scan.bind_max (run_moreFields hmore d hd)

end

/-- The scan of a JSON text accepts it when its containers are not nested too deep. -/
theorem run_document {t : Text} {v : JsonTree} (h : IsDocument t v) :
  Scan.run limit (.outside 0) (Text.encode t) =
    if v.depth ≤ limit then some (.outside 0) else none
  := by
  obtain ⟨w, u, w', hw, hv, hw', rfl⟩ := h
  have hvalue : Scan.run limit (.outside 0) (Text.encode u) =
      if v.depth ≤ limit then some (.outside 0) else none := by
    simpa using run_value hv 0 (Nat.zero_le limit)
  rw [run_blank hw, Text.encode_append, Scan.run_append, hvalue]
  split
  · rw [Option.bind_some, Scan.run_neutral (neutral_of_blank hw')]
  · rfl

end Depth

end JsonText
