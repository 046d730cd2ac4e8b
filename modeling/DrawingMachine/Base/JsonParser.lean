import DrawingMachine.Base.JsonText

/-!
# A parser of JSON

A parser that reads a JSON text from left to right, one character at a time, and keeps the
containers that are open. It accepts exactly the JSON texts. The containers it has open are
counted by the scan for the depth, also on a text that it rejects later.
-/

namespace JsonParser

open JsonText

/-- A container. -/
inductive Container where
  | array
  | object
  deriving DecidableEq

/-- A place inside of a number. -/
inductive InNumber where
  | sign
  | zero
  | whole
  | point
  | fraction
  | exponent
  | exponentSign
  | exponentDigits

/-- What the parser reads. -/
inductive Mode where
  | value
  | firstItem
  | firstKey
  | key
  | colon
  | after
  | string (isKey : Bool) (place : InString)
  | literal (rest : Text)
  | number (place : InNumber)

/-- The state of the parser: what it reads, and the containers that are open, the innermost one
first. -/
structure State where
  mode : Mode
  containers : List Container

/-- The state at the start of a text. -/
def start : State := ⟨.value, []⟩

/-! ### The steps -/

/-- The next place in a number. -/
def InNumber.next (place : InNumber) (c : Char) : Option InNumber :=
  match place with
  | .sign => if c = '0' then some .zero else if c ∈ digits then some .whole else none
  | .zero => if c = '.' then some .point else if c = 'e' ∨ c = 'E' then some .exponent else none
  | .whole =>
      if c ∈ digits then some .whole
      else if c = '.' then some .point
      else if c = 'e' ∨ c = 'E' then some .exponent
      else none
  | .point => if c ∈ digits then some .fraction else none
  | .fraction =>
      if c ∈ digits then some .fraction else if c = 'e' ∨ c = 'E' then some .exponent else none
  | .exponent =>
      if c = '+' ∨ c = '-' then some .exponentSign
      else if c ∈ digits then some .exponentDigits
      else none
  | .exponentSign => if c ∈ digits then some .exponentDigits else none
  | .exponentDigits => if c ∈ digits then some .exponentDigits else none

/-- The number may end. -/
def InNumber.complete : InNumber → Bool
  | .zero | .whole | .fraction | .exponentDigits => true
  | .sign | .point | .exponent | .exponentSign => false

/-- The next place in a string, if the string does not end. -/
def nextInString (place : InString) (c : Char) : Option InString :=
  match place with
  | .plain => if c = '\\' then some .escape else if c < ' ' ∨ c = '"' then none else some .plain
  | .escape => if c ∈ escapes then some .plain else if c = 'u' then some (.code 3) else none
  | .code 0 => if c ∈ hexDigits then some .plain else none
  | .code (n + 1) => if c ∈ hexDigits then some (.code n) else none

/-- Read the first character of a value. -/
def beginValue (cs : List Container) (c : Char) : Option State :=
  if c = '"' then some ⟨.string false .plain, cs⟩
  else if c = '{' then some ⟨.firstKey, .object :: cs⟩
  else if c = '[' then some ⟨.firstItem, .array :: cs⟩
  else if c = '-' then some ⟨.number .sign, cs⟩
  else if c = '0' then some ⟨.number .zero, cs⟩
  else if c ∈ digits then some ⟨.number .whole, cs⟩
  else if c = 'n' then some ⟨.literal "ull".toList, cs⟩
  else if c = 't' then some ⟨.literal "rue".toList, cs⟩
  else if c = 'f' then some ⟨.literal "alse".toList, cs⟩
  else none

/-- Read a character behind a value. -/
def endValue (cs : List Container) (c : Char) : Option State :=
  if c ∈ whiteSpace then some ⟨.after, cs⟩
  else
    match cs with
    | [] => none
    | .array :: rest =>
        if c = ',' then some ⟨.value, cs⟩ else if c = ']' then some ⟨.after, rest⟩ else none
    | .object :: rest =>
        if c = ',' then some ⟨.key, cs⟩ else if c = '}' then some ⟨.after, rest⟩ else none

/-- Read a character, unless it cannot stand here. -/
def step (s : State) (c : Char) : Option State :=
  match s.mode with
  | .value => if c ∈ whiteSpace then some s else beginValue s.containers c
  | .firstItem =>
      if c ∈ whiteSpace then some s
      else if c = ']' then some ⟨.after, s.containers.tail⟩
      else beginValue s.containers c
  | .firstKey =>
      if c ∈ whiteSpace then some s
      else if c = '"' then some ⟨.string true .plain, s.containers⟩
      else if c = '}' then some ⟨.after, s.containers.tail⟩
      else none
  | .key =>
      if c ∈ whiteSpace then some s
      else if c = '"' then some ⟨.string true .plain, s.containers⟩
      else none
  | .colon =>
      if c ∈ whiteSpace then some s
      else if c = ':' then some ⟨.value, s.containers⟩
      else none
  | .after => endValue s.containers c
  | .string isKey place =>
      match nextInString place c with
      | some place' => some ⟨.string isKey place', s.containers⟩
      | none =>
          match place with
          | .plain =>
              if c = '"' then some ⟨if isKey then .colon else .after, s.containers⟩ else none
          | _ => none
  | .literal rest =>
      match rest with
      | [] => endValue s.containers c
      | c' :: rest => if c = c' then some ⟨.literal rest, s.containers⟩ else none
  | .number place =>
      match place.next c with
      | some place' => some ⟨.number place', s.containers⟩
      | none => if place.complete then endValue s.containers c else none

/-- Read characters one after the other. -/
def run (s : State) (t : Text) : Option State := t.foldlM step s

/-- The text may end here. -/
def State.accepts (s : State) : Bool :=
  s.containers.isEmpty &&
    match s.mode with
    | .after => true
    | .literal rest => rest.isEmpty
    | .number place => place.complete
    | _ => false

/-- The parser accepts a text. -/
def Accepts (t : Text) : Prop := ∃ s, run start t = some s ∧ s.accepts = true

/-! ### What finishes a text -/

/-- White space, and then a text of a kind. -/
def Padded (P : Text → Prop) (t : Text) : Prop := ∃ w u, t = w ++ u ∧ Blank w ∧ P u

/-- Behind white space the text of the kind may begin later. -/
theorem padded_cons_iff {P : Text → Prop} {c : Char} {t : Text} :
  Padded P (c :: t) ↔ (c ∈ whiteSpace ∧ Padded P t) ∨ P (c :: t)
  := by
  constructor
  · rintro ⟨w, u, heq, hw, hu⟩
    rcases List.cons_eq_append_iff.mp heq with ⟨rfl, rfl⟩ | ⟨w, rfl, rfl⟩
    · exact .inr hu
    · have hspace := List.forall_mem_cons.mp hw
      exact .inl ⟨hspace.1, w, u, rfl, hspace.2, hu⟩
  · rintro (⟨hc, w, u, rfl, hw, hu⟩ | hu)
    · exact ⟨c :: w, u, rfl, List.forall_mem_cons.mpr ⟨hc, hw⟩, hu⟩
    · exact ⟨[], c :: t, rfl, by simp [Blank], hu⟩

/-- A text that does not begin with white space has to be of the kind. -/
theorem padded_nil_iff {P : Text → Prop} : Padded P [] ↔ P [] := by
  constructor
  · rintro ⟨w, u, heq, -, hu⟩
    rw [(List.append_eq_nil_iff.mp heq.symm).2] at hu
    exact hu
  · intro h
    exact ⟨[], [], rfl, by simp [Blank], h⟩

/-- What closes the containers. -/
def Closes : List Container → Text → Prop
  | [], t => Blank t
  | .array :: cs, t =>
      ∃ more vs rest, t = more ++ ']' :: rest ∧ IsMoreItems more vs ∧ Closes cs rest
  | .object :: cs, t =>
      ∃ more fields rest, t = more ++ '}' :: rest ∧ IsMoreFields more fields ∧ Closes cs rest

/-- A value, and what closes the containers. -/
def ValueCloses (cs : List Container) (t : Text) : Prop :=
  ∃ u v rest, t = u ++ rest ∧ IsValue u v ∧ Closes cs rest

/-- A colon and a value, and what closes the containers. -/
def ColonCloses (cs : List Container) (t : Text) : Prop :=
  ∃ rest, t = ':' :: rest ∧ Padded (ValueCloses cs) rest

/-- A key with its value, and what closes the containers. -/
def KeyCloses (cs : List Container) (t : Text) : Prop :=
  ∃ key rest, t = '"' :: (key ++ '"' :: rest) ∧ StringRest .plain key ∧
    Padded (ColonCloses cs) rest

/-- A closing bracket, and what closes the containers. -/
def BracketCloses (bracket : Char) (cs : List Container) (t : Text) : Prop :=
  ∃ rest, t = bracket :: rest ∧ Closes cs rest

/-- What may stand behind a place in a number. -/
def InNumber.Rest : InNumber → Text → Prop
  | .sign, t => ∃ whole fraction exponent, t = whole ++ (fraction ++ exponent) ∧
      IsWhole whole ∧ IsFraction fraction ∧ IsExponent exponent
  | .zero, t => ∃ fraction exponent, t = fraction ++ exponent ∧
      IsFraction fraction ∧ IsExponent exponent
  | .whole, t => ∃ ds fraction exponent, t = ds ++ (fraction ++ exponent) ∧
      Digits ds ∧ IsFraction fraction ∧ IsExponent exponent
  | .point, t => ∃ ds exponent, t = ds ++ exponent ∧ ds ≠ [] ∧ Digits ds ∧ IsExponent exponent
  | .fraction, t => ∃ ds exponent, t = ds ++ exponent ∧ Digits ds ∧ IsExponent exponent
  | .exponent, t => ∃ sign ds, t = sign ++ ds ∧ (sign = [] ∨ sign = ['+'] ∨ sign = ['-']) ∧
      ds ≠ [] ∧ Digits ds
  | .exponentSign, t => t ≠ [] ∧ Digits t
  | .exponentDigits, t => Digits t

/-- The text finishes what the parser has begun to read. -/
def Finishes (s : State) (t : Text) : Prop :=
  match s.mode with
  | .value => Padded (ValueCloses s.containers) t
  | .firstItem =>
      Padded (fun u => BracketCloses ']' s.containers.tail u ∨ ValueCloses s.containers u) t
  | .firstKey =>
      Padded (fun u => BracketCloses '}' s.containers.tail u ∨ KeyCloses s.containers u) t
  | .key => Padded (KeyCloses s.containers) t
  | .colon => Padded (ColonCloses s.containers) t
  | .after => Closes s.containers t
  | .string isKey place => ∃ u rest, t = u ++ '"' :: rest ∧ StringRest place u ∧
      if isKey then Padded (ColonCloses s.containers) rest else Closes s.containers rest
  | .literal u => ∃ rest, t = u ++ rest ∧ Closes s.containers rest
  | .number place => ∃ u rest, t = u ++ rest ∧ place.Rest u ∧ Closes s.containers rest

section Finishes

variable {cs : List Container} {t : Text}

@[simp]
theorem finishes_value : Finishes ⟨.value, cs⟩ t ↔ Padded (ValueCloses cs) t := Iff.rfl

@[simp]
theorem finishes_firstItem :
  Finishes ⟨.firstItem, cs⟩ t ↔
    Padded (fun u => BracketCloses ']' cs.tail u ∨ ValueCloses cs u) t
  := Iff.rfl

@[simp]
theorem finishes_firstKey :
  Finishes ⟨.firstKey, cs⟩ t ↔ Padded (fun u => BracketCloses '}' cs.tail u ∨ KeyCloses cs u) t
  := Iff.rfl

@[simp]
theorem finishes_key : Finishes ⟨.key, cs⟩ t ↔ Padded (KeyCloses cs) t := Iff.rfl

@[simp]
theorem finishes_colon : Finishes ⟨.colon, cs⟩ t ↔ Padded (ColonCloses cs) t := Iff.rfl

@[simp]
theorem finishes_after : Finishes ⟨.after, cs⟩ t ↔ Closes cs t := Iff.rfl

@[simp]
theorem finishes_string {isKey : Bool} {place : InString} :
  Finishes ⟨.string isKey place, cs⟩ t ↔
    ∃ u rest, t = u ++ '"' :: rest ∧ StringRest place u ∧
      if isKey then Padded (ColonCloses cs) rest else Closes cs rest
  := Iff.rfl

@[simp]
theorem finishes_literal {u : Text} :
  Finishes ⟨.literal u, cs⟩ t ↔ ∃ rest, t = u ++ rest ∧ Closes cs rest
  := Iff.rfl

@[simp]
theorem finishes_number {place : InNumber} :
  Finishes ⟨.number place, cs⟩ t ↔ ∃ u rest, t = u ++ rest ∧ place.Rest u ∧ Closes cs rest
  := Iff.rfl

end Finishes

/-! ### Strings and numbers -/

/-- A place in a string is followed by the next one. -/
theorem stringRest_cons_iff {place : InString} {c : Char} {t : Text} :
  StringRest place (c :: t) ↔ ∃ place', nextInString place c = some place' ∧ StringRest place' t
  := by
  constructor
  · intro h
    cases h with
    | plain hc h =>
        have hlow : ¬ (c < ' ' ∨ c = '"') := not_or.mpr ⟨hc.1, hc.2.1⟩
        exact ⟨.plain, by rw [nextInString, if_neg hc.2.2, if_neg hlow], h⟩
    | backslash h => exact ⟨.escape, rfl, h⟩
    | escape hc h => exact ⟨.plain, by rw [nextInString, if_pos hc], h⟩
    | code h => exact ⟨.code 3, rfl, h⟩
    | digit hc h => exact ⟨_, by rw [nextInString, if_pos hc], h⟩
    | lastDigit hc h => exact ⟨.plain, by rw [nextInString, if_pos hc], h⟩
  · rintro ⟨place', hnext, h⟩
    unfold nextInString at hnext
    split at hnext
    · split at hnext
      · next hc =>
          cases hnext
          rw [hc]
          exact .backslash h
      · next hc =>
          split at hnext
          · cases hnext
          · next hlow =>
              cases hnext
              rw [not_or] at hlow
              exact .plain ⟨hlow.1, hlow.2, hc⟩ h
    · split at hnext
      · next hc =>
          cases hnext
          exact .escape hc h
      · split at hnext
        · next hc =>
            cases hnext
            rw [hc]
            exact .code h
        · cases hnext
    · split at hnext
      · next hc =>
          cases hnext
          exact .lastDigit hc h
      · cases hnext
    · split at hnext
      · next hc =>
          cases hnext
          exact .digit hc h
      · cases hnext

/-- A string ends at a place between two characters. -/
theorem stringRest_nil_iff {place : InString} : StringRest place [] ↔ place = .plain := by
  constructor
  · intro h
    cases h
    rfl
  · rintro rfl
    exact .nil

theorem digits_cons_iff {c : Char} {t : Text} : Digits (c :: t) ↔ c ∈ digits ∧ Digits t :=
  List.forall_mem_cons

/-- The exponent of a number begins with a letter. -/
theorem isExponent_cons_iff {c : Char} {t : Text} :
  IsExponent (c :: t) ↔ (c = 'e' ∨ c = 'E') ∧ InNumber.exponent.Rest t
  := by
  constructor
  · rintro (heq | ⟨e, sign, ds, heq, he, hsign, hne, hds⟩)
    · cases heq
    · cases heq
      exact ⟨he, sign, ds, rfl, hsign, hne, hds⟩
  · rintro ⟨hc, sign, ds, rfl, hsign, hne, hds⟩
    exact .inr ⟨c, sign, ds, rfl, hc, hsign, hne, hds⟩

/-- Digits and an exponent. -/
theorem digits_exponent_cons_iff {c : Char} {t : Text} :
  InNumber.fraction.Rest (c :: t) ↔
    (c ∈ digits ∧ InNumber.fraction.Rest t) ∨ ((c = 'e' ∨ c = 'E') ∧ InNumber.exponent.Rest t)
  := by
  constructor
  · rintro ⟨ds, exponent, heq, hds, hexponent⟩
    rcases List.cons_eq_append_iff.mp heq with ⟨rfl, rfl⟩ | ⟨ds, rfl, rfl⟩
    · exact .inr (isExponent_cons_iff.mp hexponent)
    · have hds' := digits_cons_iff.mp hds
      exact .inl ⟨hds'.1, ds, exponent, rfl, hds'.2, hexponent⟩
  · rintro (⟨hc, ds, exponent, rfl, hds, hexponent⟩ | hexponent)
    · exact ⟨c :: ds, exponent, rfl, digits_cons_iff.mpr ⟨hc, hds⟩, hexponent⟩
    · exact ⟨[], c :: t, rfl, by simp [Digits], isExponent_cons_iff.mpr hexponent⟩

/-- What may stand behind the integer part. -/
theorem zero_rest_cons_iff {c : Char} {t : Text} :
  InNumber.zero.Rest (c :: t) ↔
    (c = '.' ∧ InNumber.point.Rest t) ∨ ((c = 'e' ∨ c = 'E') ∧ InNumber.exponent.Rest t)
  := by
  constructor
  · rintro ⟨fraction, exponent, heq, hfraction, hexponent⟩
    rcases hfraction with rfl | ⟨ds, rfl, hne, hds⟩
    · rw [List.nil_append] at heq
      rw [← heq] at hexponent
      exact .inr (isExponent_cons_iff.mp hexponent)
    · cases heq
      exact .inl ⟨rfl, ds, exponent, rfl, hne, hds, hexponent⟩
  · rintro (⟨rfl, ds, exponent, rfl, hne, hds, hexponent⟩ | hexponent)
    · exact ⟨'.' :: ds, exponent, rfl, .inr ⟨ds, rfl, hne, hds⟩, hexponent⟩
    · exact ⟨[], c :: t, rfl, .inl rfl, isExponent_cons_iff.mpr hexponent⟩

/-- What may stand behind a digit of the integer part. -/
theorem whole_rest_cons_iff {c : Char} {t : Text} :
  InNumber.whole.Rest (c :: t) ↔ (c ∈ digits ∧ InNumber.whole.Rest t) ∨ InNumber.zero.Rest (c :: t)
  := by
  constructor
  · rintro ⟨ds, fraction, exponent, heq, hds, hfraction, hexponent⟩
    rcases List.cons_eq_append_iff.mp heq with ⟨rfl, heq⟩ | ⟨ds, rfl, rfl⟩
    · exact .inr ⟨fraction, exponent, heq, hfraction, hexponent⟩
    · have hds' := digits_cons_iff.mp hds
      exact .inl ⟨hds'.1, ds, fraction, exponent, rfl, hds'.2, hfraction, hexponent⟩
  · rintro (⟨hc, ds, fraction, exponent, rfl, hds, hrest⟩ | ⟨fraction, exponent, heq, hrest⟩)
    · exact ⟨c :: ds, fraction, exponent, rfl, digits_cons_iff.mpr ⟨hc, hds⟩, hrest⟩
    · exact ⟨[], fraction, exponent, heq, by simp [Digits], hrest⟩

/-- What may stand behind the sign: a zero, or another digit of the integer part. -/
theorem sign_rest_cons_iff {c : Char} {t : Text} :
  InNumber.sign.Rest (c :: t) ↔
    (c = '0' ∧ InNumber.zero.Rest t) ∨ (c ≠ '0' ∧ c ∈ digits ∧ InNumber.whole.Rest t)
  := by
  constructor
  · rintro ⟨whole, fraction, exponent, heq, rfl | ⟨d, ds, rfl, hd, hzero, hds⟩, hrest⟩
    · cases heq
      exact .inl ⟨rfl, fraction, exponent, rfl, hrest⟩
    · cases heq
      exact .inr ⟨hzero, hd, ds, fraction, exponent, rfl, hds, hrest⟩
  · rintro (⟨rfl, fraction, exponent, rfl, hrest⟩ |
      ⟨hzero, hd, ds, fraction, exponent, rfl, hds, hrest⟩)
    · exact ⟨['0'], fraction, exponent, rfl, .inl rfl, hrest⟩
    · exact ⟨c :: ds, fraction, exponent, rfl, .inr ⟨c, ds, rfl, hd, hzero, hds⟩, hrest⟩

/-- A digit has to stand behind the point. -/
theorem point_rest_cons_iff {c : Char} {t : Text} :
  InNumber.point.Rest (c :: t) ↔ c ∈ digits ∧ InNumber.fraction.Rest t
  := by
  constructor
  · rintro ⟨ds, exponent, heq, hne, hds, hexponent⟩
    obtain ⟨d, ds, rfl⟩ := List.exists_cons_of_ne_nil hne
    cases heq
    have hds' := digits_cons_iff.mp hds
    exact ⟨hds'.1, ds, exponent, rfl, hds'.2, hexponent⟩
  · rintro ⟨hd, ds, exponent, rfl, hds, hexponent⟩
    exact ⟨c :: ds, exponent, rfl, by simp, digits_cons_iff.mpr ⟨hd, hds⟩, hexponent⟩

/-- What may stand behind the letter of the exponent: a sign, or a digit. -/
theorem exponent_rest_cons_iff {c : Char} {t : Text} :
  InNumber.exponent.Rest (c :: t) ↔
    ((c = '+' ∨ c = '-') ∧ InNumber.exponentSign.Rest t) ∨
      (c ∈ digits ∧ InNumber.exponentDigits.Rest t)
  := by
  constructor
  · rintro ⟨sign, ds, heq, rfl | rfl | rfl, hne, hds⟩
    · rw [List.nil_append] at heq
      subst heq
      exact .inr (digits_cons_iff.mp hds)
    · cases heq
      exact .inl ⟨.inl rfl, hne, hds⟩
    · cases heq
      exact .inl ⟨.inr rfl, hne, hds⟩
  · rintro (⟨rfl | rfl, hrest⟩ | ⟨hd, hds⟩)
    · exact ⟨['+'], t, rfl, .inr (.inl rfl), hrest⟩
    · exact ⟨['-'], t, rfl, .inr (.inr rfl), hrest⟩
    · exact ⟨[], c :: t, rfl, .inl rfl, by simp, digits_cons_iff.mpr ⟨hd, hds⟩⟩

/-- A place in a number is followed by the next one. -/
theorem InNumber.rest_cons_iff {place : InNumber} {c : Char} {t : Text} :
  place.Rest (c :: t) ↔ ∃ place', place.next c = some place' ∧ place'.Rest t
  := by
  have hdot : ('.' : Char) ∉ digits := by decide
  have hexp : ∀ c : Char, c = 'e' ∨ c = 'E' → c ∉ digits ∧ c ≠ '.' := by
    rintro c (rfl | rfl) <;> decide
  have hsigns : ∀ c : Char, c = '+' ∨ c = '-' → c ∉ digits := by
    rintro c (rfl | rfl) <;> decide
  cases place with
  | sign =>
      rw [sign_rest_cons_iff, next]
      by_cases hzero : c = '0'
      · simp [hzero]
      · by_cases hd : c ∈ digits <;> simp [hzero, hd]
  | zero =>
      rw [zero_rest_cons_iff, next]
      by_cases hc : c = '.'
      · have he : ¬ (c = 'e' ∨ c = 'E') := fun h => (hexp c h).2 hc
        simp [hc] at he ⊢
      · by_cases he : c = 'e' ∨ c = 'E' <;> simp [hc, he]
  | whole =>
      rw [whole_rest_cons_iff, zero_rest_cons_iff, next]
      by_cases hd : c ∈ digits
      · have hc : c ≠ '.' := by
          rintro rfl
          exact hdot hd
        have he : ¬ (c = 'e' ∨ c = 'E') := fun h => (hexp c h).1 hd
        simp [hd, hc, he]
      · by_cases hc : c = '.'
        · simp [hc, hdot]
        · by_cases he : c = 'e' ∨ c = 'E' <;> simp [hd, hc, he]
  | point =>
      rw [point_rest_cons_iff, next]
      by_cases hd : c ∈ digits <;> simp [hd]
  | fraction =>
      rw [digits_exponent_cons_iff, next]
      by_cases hd : c ∈ digits
      · have he : ¬ (c = 'e' ∨ c = 'E') := fun h => (hexp c h).1 hd
        simp [hd, he]
      · by_cases he : c = 'e' ∨ c = 'E' <;> simp [hd, he]
  | exponent =>
      rw [exponent_rest_cons_iff, next]
      by_cases hsign : c = '+' ∨ c = '-'
      · simp [hsign, hsigns c hsign]
      · by_cases hd : c ∈ digits <;> simp [hsign, hd]
  | exponentSign =>
      rw [next]
      by_cases hd : c ∈ digits <;> simp [Rest, digits_cons_iff, hd]
  | exponentDigits =>
      rw [next]
      by_cases hd : c ∈ digits <;> simp [Rest, digits_cons_iff, hd]

/-- A number ends at a place at which it may end. -/
theorem InNumber.rest_nil_iff {place : InNumber} : place.Rest [] ↔ place.complete = true := by
  have hblank : Digits [] := by simp [Digits]
  cases place with
  | sign =>
      constructor
      · rintro ⟨whole, fraction, exponent, heq, hwhole, -⟩
        have hnil := (List.append_eq_nil_iff.mp heq.symm).1
        rcases hwhole with h | ⟨d, ds, h, -⟩ <;> rw [hnil] at h <;> cases h
      · intro h
        cases h
  | zero =>
      constructor
      · exact fun _ => rfl
      · exact fun _ => ⟨[], [], rfl, .inl rfl, .inl rfl⟩
  | whole =>
      constructor
      · exact fun _ => rfl
      · exact fun _ => ⟨[], [], [], rfl, hblank, .inl rfl, .inl rfl⟩
  | point =>
      constructor
      · rintro ⟨ds, exponent, heq, hne, -⟩
        exact absurd (List.append_eq_nil_iff.mp heq.symm).1 hne
      · intro h
        cases h
  | fraction =>
      constructor
      · exact fun _ => rfl
      · exact fun _ => ⟨[], [], rfl, hblank, .inl rfl⟩
  | exponent =>
      constructor
      · rintro ⟨sign, ds, heq, -, hne, -⟩
        exact absurd (List.append_eq_nil_iff.mp heq.symm).2 hne
      · intro h
        cases h
  | exponentSign =>
      constructor
      · rintro ⟨hne, -⟩
        exact absurd rfl hne
      · intro h
        cases h
  | exponentDigits =>
      constructor
      · exact fun _ => rfl
      · exact fun _ => hblank

/-! ### Closing containers -/

/-- Behind an item the array ends or the next item follows. -/
theorem closes_array_iff {cs : List Container} {t : Text} :
  Closes (.array :: cs) t ↔
    Padded (fun u => BracketCloses ']' cs u ∨
      ∃ rest, u = ',' :: rest ∧ Padded (ValueCloses (.array :: cs)) rest) t
  := by
  constructor
  · rintro ⟨more, vs, rest, rfl, hmore, hrest⟩
    cases hmore with
    | done hw => exact ⟨more, ']' :: rest, rfl, hw, .inl ⟨rest, rfl, hrest⟩⟩
    | item hw hw' hv hmore =>
        refine ⟨_, _, List.append_assoc _ _ _, hw, .inr ⟨_, rfl, ?_⟩⟩
        refine ⟨_, _, List.append_assoc _ _ _, hw', ?_⟩
        exact ⟨_, _, _, List.append_assoc _ _ _, hv, _, _, rest, rfl, hmore, hrest⟩
  · rintro ⟨w, u, rfl, hw, ⟨rest, rfl, hrest⟩ | ⟨rest, rfl, hvalue⟩⟩
    · exact ⟨w, [], rest, rfl, .done hw, hrest⟩
    · obtain ⟨w', u, rfl, hw', t, v, tail, rfl, hv, more, vs, rest, rfl, hmore, hrest⟩ := hvalue
      refine ⟨_, v :: vs, rest, ?_, .item hw hw' hv hmore, hrest⟩
      simp

/-- A field, and what closes the containers. -/
theorem keyCloses_iff {cs : List Container} {u : Text} :
  Padded (KeyCloses cs) u ↔
    ∃ t field rest, u = t ++ rest ∧ IsField t field ∧ Closes cs rest
  := by
  constructor
  · rintro ⟨w₁, u, rfl, hw₁, key, u, rfl, hkey, w₂, u, rfl, hw₂, u, rfl, w₃, u, rfl, hw₃, t, v,
      rest, rfl, hv, hrest⟩
    refine ⟨_, (key, v), rest, ?_, .field hw₁ hkey hw₂ hw₃ hv, hrest⟩
    simp
  · rintro ⟨_, _, rest, rfl, ⟨hw₁, hkey, hw₂, hw₃, hv⟩, hrest⟩
    rw [List.append_assoc]
    refine ⟨_, _, rfl, hw₁, ?_⟩
    simp only [List.cons_append, List.append_assoc]
    exact ⟨_, _, rfl, hkey, _, _, rfl, hw₂, _, rfl, _, _, rfl, hw₃, _, _, rest, rfl, hv, hrest⟩

/-- Behind a field the object ends or the next field follows. -/
theorem closes_object_iff {cs : List Container} {t : Text} :
  Closes (.object :: cs) t ↔
    Padded (fun u => BracketCloses '}' cs u ∨
      ∃ rest, u = ',' :: rest ∧ Padded (KeyCloses (.object :: cs)) rest) t
  := by
  constructor
  · rintro ⟨more, fields, rest, rfl, hmore, hrest⟩
    cases hmore with
    | done hw => exact ⟨more, '}' :: rest, rfl, hw, .inl ⟨rest, rfl, hrest⟩⟩
    | field hw hfield hmore =>
        refine ⟨_, _, List.append_assoc _ _ _, hw, .inr ⟨_, rfl, keyCloses_iff.mpr ?_⟩⟩
        refine ⟨_, _, _, List.append_assoc _ _ _, hfield, ?_⟩
        exact ⟨_, _, rest, rfl, hmore, hrest⟩
  · rintro ⟨w, u, rfl, hw, ⟨rest, rfl, hrest⟩ | ⟨rest, rfl, hkey⟩⟩
    · exact ⟨w, [], rest, rfl, .done hw, hrest⟩
    · obtain ⟨t, field, tail, rfl, hfield, more, fields, rest, rfl, hmore, hrest⟩ :=
        keyCloses_iff.mp hkey
      refine ⟨_, field :: fields, rest, ?_, .field hw hfield hmore, hrest⟩
      simp

theorem bracketCloses_cons_iff {bracket c : Char} {cs : List Container} {t : Text} :
  BracketCloses bracket cs (c :: t) ↔ c = bracket ∧ Closes cs t
  := by
  constructor
  · rintro ⟨rest, heq, hrest⟩
    cases heq
    exact ⟨rfl, hrest⟩
  · rintro ⟨rfl, h⟩
    exact ⟨t, rfl, h⟩

/-- What stands behind a value is read as such. -/
theorem closes_cons_iff {cs : List Container} {c : Char} {t : Text} :
  Closes cs (c :: t) ↔ ∃ s, endValue cs c = some s ∧ Finishes s t
  := by
  have hspace : ∀ c ∈ whiteSpace, c ≠ ',' ∧ c ≠ ']' ∧ c ≠ '}' := by decide
  cases cs with
  | nil =>
      rw [endValue]
      by_cases hc : c ∈ whiteSpace <;> simp [Closes, Blank, hc]
  | cons container cs =>
      cases container with
      | array =>
          rw [endValue, closes_array_iff, padded_cons_iff, ← closes_array_iff,
            bracketCloses_cons_iff]
          by_cases hc : c ∈ whiteSpace
          · obtain ⟨hcomma, hclose, -⟩ := hspace c hc
            simp [hc, hcomma, hclose]
          · by_cases hcomma : c = ','
            · subst hcomma
              simp [hc]
            · by_cases hclose : c = ']'
              · subst hclose
                simp [hc]
              · simp [hc, hcomma, hclose]
      | object =>
          rw [endValue, closes_object_iff, padded_cons_iff, ← closes_object_iff,
            bracketCloses_cons_iff]
          by_cases hc : c ∈ whiteSpace
          · obtain ⟨hcomma, -, hclose⟩ := hspace c hc
            simp [hc, hcomma, hclose]
          · by_cases hcomma : c = ','
            · subst hcomma
              simp [hc]
            · by_cases hclose : c = '}'
              · subst hclose
                simp [hc]
              · simp [hc, hcomma, hclose]

/-- The text ends behind a value when no container is open. -/
theorem closes_nil_iff {cs : List Container} : Closes cs [] ↔ cs = [] := by
  cases cs with
  | nil => simp [Closes, Blank]
  | cons container cs =>
      cases container <;> simp [Closes]

/-! ### Beginning values -/

/-- The number that begins with a digit or a sign. -/
theorem isNumber_iff {c : Char} {t : Text} :
  IsNumber (c :: t) ↔
    (c = '-' ∧ InNumber.sign.Rest t) ∨ InNumber.sign.Rest (c :: t)
  := by
  constructor
  · rintro ⟨sign, whole, fraction, exponent, heq, rfl | rfl, hrest⟩
    · exact .inr ⟨whole, fraction, exponent, heq, hrest⟩
    · cases heq
      exact .inl ⟨rfl, whole, fraction, exponent, rfl, hrest⟩
  · rintro (⟨rfl, whole, fraction, exponent, rfl, hrest⟩ | ⟨whole, fraction, exponent, heq, hrest⟩)
    · exact ⟨['-'], whole, fraction, exponent, rfl, .inr rfl, hrest⟩
    · exact ⟨[], whole, fraction, exponent, heq, .inl rfl, hrest⟩

/-- A value is begun with its first character. -/
theorem exists_beginValue {cs : List Container} {c : Char} {t : Text}
    (h : ValueCloses cs (c :: t)) :
  ∃ s, beginValue cs c = some s ∧ Finishes s t
  := by
  obtain ⟨u, v, rest, heq, hv, hrest⟩ := h
  cases hv with
  | literal hu =>
      simp only [literals, List.mem_cons, List.not_mem_nil, or_false] at hu
      rcases hu with rfl | rfl | rfl
      · cases heq
        exact ⟨_, rfl, rest, rfl, hrest⟩
      · cases heq
        exact ⟨_, rfl, rest, rfl, hrest⟩
      · cases heq
        exact ⟨_, rfl, rest, rfl, hrest⟩
  | number hu =>
      obtain ⟨d, u, rfl⟩ : ∃ d u', u = d :: u' := by
        obtain ⟨sign, whole, fraction, exponent, rfl, hsign, hwhole, -⟩ := hu
        rcases hsign with rfl | rfl
        · rcases hwhole with rfl | ⟨d, ds, rfl, -⟩
          · exact ⟨_, _, rfl⟩
          · exact ⟨_, _, rfl⟩
        · exact ⟨_, _, rfl⟩
      cases heq
      rcases isNumber_iff.mp hu with ⟨rfl, hsign⟩ | hsign
      · exact ⟨_, rfl, u, rest, rfl, hsign, hrest⟩
      · obtain ⟨place, hnext, hplace⟩ := InNumber.rest_cons_iff.mp hsign
        refine ⟨⟨.number place, cs⟩, ?_, u, rest, rfl, hplace, hrest⟩
        have hdigit : ∀ d ∈ digits, d ≠ '"' ∧ d ≠ '{' ∧ d ≠ '[' ∧ d ≠ '-' := by decide
        rw [InNumber.next] at hnext
        split at hnext
        · next hzero =>
            cases hnext
            rw [hzero]
            rfl
        · next hzero =>
            split at hnext
            · next hd =>
                cases hnext
                obtain ⟨h₁, h₂, h₃, h₄⟩ := hdigit _ hd
                simp [beginValue, h₁, h₂, h₃, h₄, hzero, hd]
            · cases hnext
  | string hu =>
      cases heq
      exact ⟨_, rfl, _, rest, List.append_assoc _ _ _, hu, hrest⟩
  | emptyArray hw =>
      cases heq
      refine ⟨⟨.firstItem, .array :: cs⟩, rfl, ?_⟩
      exact ⟨_, _, List.append_assoc _ _ _, hw, .inl ⟨rest, rfl, hrest⟩⟩
  | array hw hv hmore =>
      cases heq
      refine ⟨⟨.firstItem, .array :: cs⟩, rfl, ?_⟩
      refine ⟨_, _, List.append_assoc _ _ _, hw, .inr ?_⟩
      refine ⟨_, _, _, List.append_assoc _ _ _, hv, ?_⟩
      exact ⟨_, _, rest, List.append_assoc _ _ _, hmore, hrest⟩
  | emptyObject hw =>
      cases heq
      refine ⟨⟨.firstKey, .object :: cs⟩, rfl, ?_⟩
      exact ⟨_, _, List.append_assoc _ _ _, hw, .inl ⟨rest, rfl, hrest⟩⟩
  | object hfield hmore =>
      cases heq
      refine ⟨⟨.firstKey, .object :: cs⟩, rfl, ?_⟩
      have hcloses : Closes (.object :: cs) _ := ⟨_, _, rest, rfl, hmore, hrest⟩
      obtain ⟨w, u, heq, hw, hu⟩ := keyCloses_iff.mpr ⟨_, _, _, rfl, hfield, hcloses⟩
      refine ⟨w, u, ?_, hw, .inr hu⟩
      rw [← heq, List.append_eq, List.append_assoc, List.append_assoc, List.singleton_append]

/-- What finishes a value that has been begun is a value with its first character. -/
theorem valueCloses_of_beginValue {cs : List Container} {c : Char} {t : Text} {s : State}
    (hbegin : beginValue cs c = some s) (h : Finishes s t) :
  ValueCloses cs (c :: t)
  := by
  unfold beginValue at hbegin
  split_ifs at hbegin with hquote hobject harray hminus hzero hdigit hn ht hf <;> cases hbegin
  · subst hquote
    obtain ⟨u, rest, rfl, hu, hrest⟩ := h
    exact ⟨'"' :: (u ++ ['"']), _, rest, by simp, .string hu, hrest⟩
  · subst hobject
    obtain ⟨w, u, rfl, hw, ⟨rest, rfl, hrest⟩ | hkey⟩ := h
    · exact ⟨'{' :: (w ++ ['}']), _, rest, by simp, .emptyObject hw, hrest⟩
    · obtain ⟨t, field, tail, heq, hfield, more, fields, rest, rfl, hmore, hrest⟩ :=
        keyCloses_iff.mp ⟨w, u, rfl, hw, hkey⟩
      exact ⟨'{' :: (t ++ (more ++ ['}'])), _, rest, by simp [heq], .object hfield hmore, hrest⟩
  · subst harray
    obtain ⟨w, u, rfl, hw, ⟨rest, rfl, hrest⟩ | hvalue⟩ := h
    · exact ⟨'[' :: (w ++ [']']), _, rest, by simp, .emptyArray hw, hrest⟩
    · obtain ⟨t, v, tail, rfl, hv, more, vs, rest, rfl, hmore, hrest⟩ := hvalue
      exact ⟨'[' :: (w ++ (t ++ (more ++ [']']))), _, rest, by simp, .array hw hv hmore, hrest⟩
  · subst hminus
    obtain ⟨u, rest, rfl, hu, hrest⟩ := h
    exact ⟨'-' :: u, _, rest, rfl, .number (isNumber_iff.mpr (.inl ⟨rfl, hu⟩)), hrest⟩
  · subst hzero
    obtain ⟨u, rest, rfl, hu, hrest⟩ := h
    refine ⟨'0' :: u, _, rest, rfl, .number (isNumber_iff.mpr (.inr ?_)), hrest⟩
    exact InNumber.rest_cons_iff.mpr ⟨.zero, rfl, hu⟩
  · obtain ⟨u, rest, rfl, hu, hrest⟩ := h
    refine ⟨c :: u, _, rest, rfl, .number (isNumber_iff.mpr (.inr ?_)), hrest⟩
    apply InNumber.rest_cons_iff.mpr
    use .whole
    rw [InNumber.next, if_neg hzero, if_pos hdigit]
    exact ⟨rfl, hu⟩
  · subst hn
    obtain ⟨rest, rfl, hrest⟩ := h
    exact ⟨"null".toList, _, rest, rfl, .literal (by simp [literals]), hrest⟩
  · subst ht
    obtain ⟨rest, rfl, hrest⟩ := h
    exact ⟨"true".toList, _, rest, rfl, .literal (by simp [literals]), hrest⟩
  · subst hf
    obtain ⟨rest, rfl, hrest⟩ := h
    exact ⟨"false".toList, _, rest, rfl, .literal (by simp [literals]), hrest⟩

/-- A value is begun with its first character. -/
theorem valueCloses_cons_iff {cs : List Container} {c : Char} {t : Text} :
  ValueCloses cs (c :: t) ↔ ∃ s, beginValue cs c = some s ∧ Finishes s t
  := by
  constructor
  · apply exists_beginValue
  · rintro ⟨s, hbegin, h⟩
    apply valueCloses_of_beginValue hbegin h

/-- A value does not begin with white space or a closing bracket. -/
theorem beginValue_eq_none {c : Char} (hc : c ∈ whiteSpace ∨ c = ']') (cs : List Container) :
  beginValue cs c = none
  := by
  simp only [whiteSpace, List.mem_cons, List.not_mem_nil, or_false] at hc
  rcases hc with (rfl | rfl | rfl | rfl) | rfl <;> rfl

/-! ### The parser accepts the JSON texts -/

/-- A key begins with a quote. -/
theorem keyCloses_cons_iff {cs : List Container} {c : Char} {t : Text} :
  KeyCloses cs (c :: t) ↔ c = '"' ∧ Finishes ⟨.string true .plain, cs⟩ t
  := by
  constructor
  · rintro ⟨key, rest, heq, hkey, hrest⟩
    cases heq
    exact ⟨rfl, key, rest, rfl, hkey, hrest⟩
  · rintro ⟨rfl, key, rest, rfl, hkey, hrest⟩
    exact ⟨key, rest, rfl, hkey, hrest⟩

/-- What stands between a key and its value begins with a colon. -/
theorem colonCloses_cons_iff {cs : List Container} {c : Char} {t : Text} :
  ColonCloses cs (c :: t) ↔ c = ':' ∧ Padded (ValueCloses cs) t
  := by
  constructor
  · rintro ⟨rest, heq, hrest⟩
    cases heq
    exact ⟨rfl, hrest⟩
  · rintro ⟨rfl, hrest⟩
    exact ⟨t, rfl, hrest⟩

/-- A string goes on, or it ends with a quote. -/
theorem finishes_string_cons_iff {cs : List Container} {isKey : Bool} {place : InString} {c : Char}
    {t : Text} :
  Finishes ⟨.string isKey place, cs⟩ (c :: t) ↔
    (∃ place', nextInString place c = some place' ∧ Finishes ⟨.string isKey place', cs⟩ t) ∨
      (place = .plain ∧ c = '"' ∧ Finishes ⟨if isKey then .colon else .after, cs⟩ t)
  := by
  constructor
  · rintro ⟨u, rest, heq, hu, hrest⟩
    rcases List.cons_eq_append_iff.mp heq with ⟨rfl, heq⟩ | ⟨u, rfl, rfl⟩
    · cases heq
      right
      use stringRest_nil_iff.mp hu, rfl
      cases isKey <;> exact hrest
    · obtain ⟨place', hnext, hplace⟩ := stringRest_cons_iff.mp hu
      exact .inl ⟨place', hnext, u, rest, rfl, hplace, hrest⟩
  · rintro (⟨place', hnext, u, rest, rfl, hu, hrest⟩ | ⟨rfl, rfl, hrest⟩)
    · exact ⟨c :: u, rest, rfl, stringRest_cons_iff.mpr ⟨place', hnext, hu⟩, hrest⟩
    · use [], t, rfl, .nil
      cases isKey <;> exact hrest

/-- A number goes on, or it ends before what closes the containers. -/
theorem finishes_number_cons_iff {cs : List Container} {place : InNumber} {c : Char} {t : Text} :
  Finishes ⟨.number place, cs⟩ (c :: t) ↔
    (∃ place', place.next c = some place' ∧ Finishes ⟨.number place', cs⟩ t) ∨
      (place.complete = true ∧ Closes cs (c :: t))
  := by
  constructor
  · rintro ⟨u, rest, heq, hu, hrest⟩
    rcases List.cons_eq_append_iff.mp heq with ⟨rfl, heq⟩ | ⟨u, rfl, rfl⟩
    · right
      use InNumber.rest_nil_iff.mp hu
      rwa [heq]
    · obtain ⟨place', hnext, hplace⟩ := InNumber.rest_cons_iff.mp hu
      exact .inl ⟨place', hnext, u, rest, rfl, hplace, hrest⟩
  · rintro (⟨place', hnext, u, rest, rfl, hu, hrest⟩ | ⟨hcomplete, hrest⟩)
    · exact ⟨c :: u, rest, rfl, InNumber.rest_cons_iff.mpr ⟨place', hnext, hu⟩, hrest⟩
    · exact ⟨[], c :: t, rfl, InNumber.rest_nil_iff.mpr hcomplete, hrest⟩

/-- What may stand behind a value does not belong to a number. -/
theorem InNumber.next_eq_none {cs : List Container} {c : Char} {s : State}
    (h : endValue cs c = some s) (place : InNumber) :
  place.next c = none
  := by
  have hmem : c ∈ whiteSpace ++ [',', ']', '}'] := by
    by_contra hnot
    simp only [List.mem_append, List.mem_cons, List.not_mem_nil, or_false, not_or] at hnot
    obtain ⟨hspace, hcomma, hbracket, hbrace⟩ := hnot
    cases cs with
    | nil => simp [endValue, hspace] at h
    | cons container cs =>
        cases container <;> simp [endValue, hspace, hcomma, hbracket, hbrace] at h
  have hnone : ∀ c ∈ whiteSpace ++ [',', ']', '}'], place.next c = none := by
    cases place <;> decide
  exact hnone c hmem

/-- A character between quotes is not a quote. -/
theorem nextInString_quote (place : InString) (h : place = .plain) :
  nextInString place '"' = none
  := by
  rw [h]
  rfl

/-- What finishes a text is read by a step, and what finishes the text then. -/
theorem finishes_cons_iff {s : State} {c : Char} {t : Text} :
  Finishes s (c :: t) ↔ ∃ s', step s c = some s' ∧ Finishes s' t
  := by
  have hspace : ∀ c ∈ whiteSpace, c ≠ '"' ∧ c ≠ ':' ∧ c ≠ ']' ∧ c ≠ '}' := by decide
  obtain ⟨mode, cs⟩ := s
  cases mode with
  | value =>
      rw [finishes_value, step, padded_cons_iff, valueCloses_cons_iff]
      by_cases hc : c ∈ whiteSpace
      · simp [hc, beginValue_eq_none (.inl hc)]
      · simp [hc]
  | firstItem =>
      rw [finishes_firstItem, step, padded_cons_iff, valueCloses_cons_iff, bracketCloses_cons_iff]
      by_cases hc : c ∈ whiteSpace
      · simp [hc, beginValue_eq_none (.inl hc), (hspace c hc).2.2.1]
      · by_cases hclose : c = ']'
        · subst hclose
          simp [hc, beginValue_eq_none (.inr rfl)]
        · simp [hc, hclose]
  | firstKey =>
      rw [finishes_firstKey, step, padded_cons_iff, keyCloses_cons_iff, bracketCloses_cons_iff]
      by_cases hc : c ∈ whiteSpace
      · simp [hc, (hspace c hc).1, (hspace c hc).2.2.2]
      · by_cases hquote : c = '"'
        · subst hquote
          simp [hc]
        · by_cases hclose : c = '}'
          · subst hclose
            simp [hc]
          · simp [hc, hquote, hclose]
  | key =>
      rw [finishes_key, step, padded_cons_iff, keyCloses_cons_iff]
      by_cases hc : c ∈ whiteSpace
      · simp [hc, (hspace c hc).1]
      · by_cases hquote : c = '"'
        · subst hquote
          simp [hc]
        · simp [hc, hquote]
  | colon =>
      rw [finishes_colon, step, padded_cons_iff, colonCloses_cons_iff]
      by_cases hc : c ∈ whiteSpace
      · simp [hc, (hspace c hc).2.1]
      · by_cases hcolon : c = ':'
        · subst hcolon
          simp [hc]
        · simp [hc, hcolon]
  | after => apply closes_cons_iff
  | string isKey place =>
      rw [finishes_string_cons_iff, step]
      cases hnext : nextInString place c with
      | some place' =>
          have hquote : ¬ (place = .plain ∧ c = '"') := by
            rintro ⟨hplace, rfl⟩
            rw [nextInString_quote place hplace] at hnext
            cases hnext
          simp only [hnext, Option.some.injEq, exists_eq_left']
          tauto
      | none =>
          cases place with
          | plain =>
              by_cases hquote : c = '"'
              · subst hquote
                simp [hnext]
              · simp [hnext, hquote]
          | escape => simp [hnext]
          | code n => simp [hnext]
  | literal u =>
      cases u with
      | nil =>
          rw [step, ← closes_cons_iff]
          simp
      | cons d u =>
          rw [step]
          by_cases hc : c = d
          · subst hc
            simp
          · simp [hc]
  | number place =>
      rw [finishes_number_cons_iff, closes_cons_iff, step]
      cases hnext : place.next c with
      | some place' =>
          have hend : endValue cs c = none := by
            cases hend : endValue cs c with
            | none => rfl
            | some s =>
                rw [InNumber.next_eq_none hend] at hnext
                cases hnext
          simp [hnext, hend]
      | none =>
          by_cases hcomplete : place.complete = true <;> simp [hnext, hcomplete]

/-- The text of a value is not empty. -/
theorem IsValue.ne_nil {t : Text} {v : JsonTree} (h : IsValue t v) : t ≠ [] := by
  cases h with
  | literal ht =>
      rintro rfl
      simp [literals] at ht
  | number ht =>
      rintro rfl
      rw [IsNumber] at ht
      obtain ⟨sign, whole, fraction, exponent, heq, -, hwhole, -⟩ := ht
      have hnil := (List.append_eq_nil_iff.mp (List.append_eq_nil_iff.mp heq.symm).2).1
      rcases hwhole with h | ⟨d, ds, h, -⟩ <;> rw [hnil] at h <;> cases h
  | string _ => simp
  | emptyArray _ => simp
  | array _ _ _ => simp
  | emptyObject _ => simp
  | object _ _ => simp

theorem not_valueCloses_nil (cs : List Container) : ¬ ValueCloses cs [] := by
  rintro ⟨u, v, rest, heq, hv, -⟩
  exact IsValue.ne_nil hv (List.append_eq_nil_iff.mp heq.symm).1

/-- The text may end where the parser says so. -/
theorem finishes_nil_iff {s : State} : Finishes s [] ↔ s.accepts = true := by
  obtain ⟨mode, cs⟩ := s
  cases mode with
  | value => simp [padded_nil_iff, not_valueCloses_nil, State.accepts]
  | firstItem => simp [padded_nil_iff, not_valueCloses_nil, BracketCloses, State.accepts]
  | firstKey => simp [padded_nil_iff, BracketCloses, KeyCloses, State.accepts]
  | key => simp [padded_nil_iff, KeyCloses, State.accepts]
  | colon => simp [padded_nil_iff, ColonCloses, State.accepts]
  | after => simp [closes_nil_iff, State.accepts]
  | string isKey place => simp [State.accepts]
  | literal u =>
      rw [finishes_literal]
      constructor
      · rintro ⟨rest, heq, hrest⟩
        obtain ⟨rfl, rfl⟩ := List.append_eq_nil_iff.mp heq.symm
        simp [closes_nil_iff.mp hrest, State.accepts]
      · intro h
        simp only [State.accepts, Bool.and_eq_true, List.isEmpty_iff] at h
        exact ⟨[], by simp [h.2], closes_nil_iff.mpr h.1⟩
  | number place =>
      rw [finishes_number]
      constructor
      · rintro ⟨u, rest, heq, hu, hrest⟩
        obtain ⟨rfl, rfl⟩ := List.append_eq_nil_iff.mp heq.symm
        simp [closes_nil_iff.mp hrest, State.accepts, InNumber.rest_nil_iff.mp hu]
      · intro h
        simp only [State.accepts, Bool.and_eq_true, List.isEmpty_iff] at h
        exact ⟨[], [], rfl, InNumber.rest_nil_iff.mpr h.2, closes_nil_iff.mpr h.1⟩

/-- The parser reads a text to its end exactly when the text finishes what it has begun. -/
theorem finishes_iff {s : State} {t : Text} :
  Finishes s t ↔ ∃ s', run s t = some s' ∧ s'.accepts = true
  := by
  induction t generalizing s with
  | nil =>
      rw [finishes_nil_iff]
      simp [run]
  | cons c t ih =>
      rw [finishes_cons_iff]
      simp only [ih, run, List.foldlM_cons]
      cases step s c <;> simp

/-- The parser accepts exactly the JSON texts. -/
theorem accepts_iff {t : Text} : Accepts t ↔ ∃ v, IsDocument t v := by
  rw [Accepts, ← finishes_iff, start, finishes_value]
  constructor
  · rintro ⟨w, u, rfl, hw, t, v, rest, rfl, hv, hrest⟩
    exact ⟨v, w, t, rest, hw, hv, hrest, rfl⟩
  · rintro ⟨v, w, t, rest, hw, hv, hrest, rfl⟩
    exact ⟨w, t ++ rest, rfl, hw, t, v, rest, rfl, hv, hrest⟩

end JsonParser
