import DrawingMachine.Base.FloatOfInt
import DrawingMachine.Base.PyValue
import DrawingMachine.Base.Declares
import DrawingMachine.Machine.Models

/-!
# Decoding the evidence of an execution

The decoders of failure evidence, session snapshots, motion evidence and recovery evidence.
A decoder reads the values of a payload one after another, in a fixed order, and then builds
the record, which makes the checks of its constructor. An error of the program is declared;
an exception of Python that no branch of a decoder catches is let through.

Of Python's own readings, that of a float is exact or none when it is not finite, and that of
an ISO 8601 text is a parameter: it gives a date and time, or a `ValueError` and nothing else.
-/

namespace DrawingMachine

open Declares PyValue

/-- The exceptions that a decoder could let through: of a key that a mapping does not have,
and of an integer that is too large for a float. -/
inductive PyException where
  | keyError | overflowError
  deriving DecidableEq, Repr

/-- A computation of a decoder. -/
abbrev Decoder : Type → Type := Declares ErrorPayload PyException

/-- A date and time: an instant, or a naive one, which has no time zone. -/
inductive Datetime where
  | aware (instant : Timestamp)
  | naive
  deriving DecidableEq, Repr

/-- The readings of Python that the decoders rest on: the value of a float that is finite,
and the date and time of a text in ISO 8601. -/
structure PyReading (φ : Type) where
  ofFloat : φ → Option ℚ
  fromisoformat : String → Option Datetime

/-- The float of an integer, in double precision. -/
@[irreducible] def floatOfInt (n : ℤ) : Option ℤ := FloatOfInt.ofInt? 53 1024 n

/-- An integer is too large for a float when its absolute value reaches the middle between
the greatest float and `2 ^ 1024`. -/
def TooLargeInt (n : ℤ) : Prop := 2 ^ 1024 - 2 ^ 970 ≤ n.natAbs

/-- The integers without a float are those that are too large. -/
theorem floatOfInt_eq_none_iff {n : ℤ} : floatOfInt n = none ↔ TooLargeInt n := by
  unfold floatOfInt
  apply FloatOfInt.ofInt?_eq_none_iff
  · apply Nat.succ_pos
  · rfl

/-! ### What a value is read as -/

section

variable {φ : Type} {α : Type}

/-- A value is a string, and it is a plain text. -/
def IsText (value : PyValue φ) (text : String) : Prop :=
  value = .str (PyStr.ofString text) ∧ PlainText text

/-- A value is an integer with a lower bound. -/
def IsInteger (minimum : ℕ) (value : PyValue φ) (n : ℕ) : Prop :=
  value = .int n ∧ minimum ≤ n

/-- A value is a finite number. -/
def IsFinite (py : PyReading φ) (value : PyValue φ) (q : ℚ) : Prop :=
  (∃ n m, value = .int n ∧ floatOfInt n = some m ∧ q = m) ∨
    ∃ x, value = .float x ∧ py.ofFloat x = some q

/-- A value is an integer that is too large for a float. -/
def IsTooLarge (value : PyValue φ) : Prop := ∃ n, value = .int n ∧ TooLargeInt n

/-- A value is the name of a member of an enumeration. -/
def IsMember (members : List (String × α)) (value : PyValue φ) (a : α) : Prop :=
  ∃ text, IsText value text ∧ members.lookup text = some a

/-- A value is a date and time in ISO 8601. -/
def IsDatetime (py : PyReading φ) (value : PyValue φ) (d : Datetime) : Prop :=
  ∃ text, IsText value text ∧ py.fromisoformat text = some d

/-- A value is a list of three finite numbers. -/
def IsPosition (py : PyReading φ) (value : PyValue φ) (p : Vector3) : Prop :=
  ∃ x y z, value = .arr [x, y, z] ∧
    IsFinite py x p.x ∧ IsFinite py y p.y ∧ IsFinite py z p.z

/-- The first of the coordinates of a position that is no finite number is an integer too
large for a float. -/
def PositionOverflows (py : PyReading φ) (value : PyValue φ) : Prop :=
  ∃ x y z, value = .arr [x, y, z] ∧
    FirstBad (fun v => ∃ q, IsFinite py v q) IsTooLarge [x, y, z]

/-- A value is null, or is read as something else. -/
def IsNullable (reads : PyValue φ → α → Prop) (value : PyValue φ) : Option α → Prop
  | none => value = .null
  | some a => reads value a

end

/-! ### The readers -/

namespace FromJson

variable {φ : Type} {α : Type}

/-- The value of an object under a key. -/
def item (data : List (PyStr × PyValue φ)) (key : String) : Decoder (PyValue φ) :=
  match lookup data key with
  | some value => .ok value
  | none => escape .keyError

/-- An object with exactly the given fields. -/
def object (value : PyValue φ) (fields : List String) (context : String) :
    Decoder (List (PyStr × PyValue φ)) :=
  match value with
  | .obj data =>
      if HasExactly data fields then
        .ok data
      else
        raise (invalidField (context ++ " has unknown or missing fields") context)
  | _ => raise (invalidField (context ++ " must be an object") context)

/-- A text without control characters that is not empty. -/
def string (value : PyValue φ) (field : String) : Decoder String :=
  match value with
  | .str s =>
      if s = [] then
        raise (invalidField (field ++ " must be a non-empty plain string") field)
      else
        match PyStr.encode s with
        | none => raise (invalidField (field ++ " contains invalid Unicode") field)
        | some text => do
            declared (rejectIf (∃ c ∈ text.toList, c.toNat < 32 ∨ c.toNat = 127)
              (invalidField (field ++ " contains control characters") field))
            return text
  | _ => raise (invalidField (field ++ " must be a non-empty plain string") field)

/-- An integer with a lower bound. -/
def integer (value : PyValue φ) (field : String) (minimum : ℕ) : Decoder ℕ :=
  match value with
  | .int n =>
      if n < minimum then
        raise (invalidField (field ++ " must be an integer at least " ++ toString minimum) field)
      else
        .ok n.toNat
  | _ => raise (invalidField (field ++ " must be an integer at least " ++ toString minimum) field)

/-- A finite number. The conversion of an integer is not guarded: the exception of one that
is too large for a float is let through. -/
def finite (py : PyReading φ) (value : PyValue φ) (field : String) : Decoder ℚ :=
  match value with
  | .int n =>
      match floatOfInt n with
      | some m => .ok m
      | none => escape .overflowError
  | .float x =>
      match py.ofFloat x with
      | some q => .ok q
      | none => raise (invalidField (field ++ " must be finite") field)
  | _ => raise (invalidField (field ++ " must be numeric") field)

/-- A truth value, or the given error. -/
def boolean (value : PyValue φ) (e : ErrorPayload) : Decoder Bool :=
  match value with
  | .bool b => .ok b
  | _ => raise e

/-- A date and time from its text. -/
def isoDatetime (py : PyReading φ) (text field : String) : Decoder Datetime :=
  match py.fromisoformat text with
  | some d => .ok d
  | none => raise (invalidField (field ++ " must be ISO 8601") field)

/-- The instant of a date and time. -/
def timestamp (d : Datetime) (field : String) : Decoder Timestamp :=
  match d with
  | .aware instant => .ok instant
  | .naive => raise (invalidField (field ++ " must be timezone-aware") field)

/-- The member of an enumeration, from its name. -/
def enumJson (members : List (String × α)) (value : PyValue φ) (field : String) : Decoder α := do
  let text ← string value field
  match members.lookup text with
  | some a => return a
  | none => raise (invalidField (field ++ " has an unknown value") field)

/-- A list of three finite numbers. -/
def jsonPosition (py : PyReading φ) (value : PyValue φ) (field : String) : Decoder Vector3 :=
  match value with
  | .arr [x, y, z] => do
      let x ← finite py x (field ++ ".x")
      let y ← finite py y (field ++ ".y")
      let z ← finite py z (field ++ ".z")
      return ⟨x, y, z⟩
  | _ => raise (invalidField (field ++ " must be an exact JSON XYZ array") field)

/-- A value that may be null. -/
def nullable (reader : PyValue φ → Decoder α) (value : PyValue φ) : Decoder (Option α) :=
  match value with
  | .null => .ok none
  | value => do
      let a ← reader value
      return some a

/-! ### What the readers return and let through -/

section

variable {value : PyValue φ} {field context : String} {data : List (PyStr × PyValue φ)}
  {fields : List String} {key : String} {py : PyReading φ}

/-- An object that has its fields has a value under each of them. -/
theorem item_eq (h : HasExactly data fields) (hkey : key ∈ fields) :
  item data key = .ok (valueAt data key)
  := by
  rw [item, h.lookup_eq hkey]

/-- An object is read when it has exactly its fields. -/
theorem object_eq_ok_iff :
  object value fields context = .ok data ↔ value = .obj data ∧ HasExactly data fields
  := by
  cases value with
  | obj entries =>
      rw [object, PyValue.obj.injEq]
      split
      · rename_i h
        rw [Except.ok.injEq]
        constructor
        · rintro rfl
          apply And.intro rfl h
        · rintro ⟨rfl, -⟩
          rfl
      · rename_i h
        constructor
        · simp
        · rintro ⟨rfl, hdata⟩
          apply absurd hdata h
  | _ => simp [object]

/-- Reading an object lets nothing through. -/
@[simp] theorem not_escapes_object : ¬ Escapes (object value fields context) := by
  unfold object
  split
  · split <;> simp
  · simp

/-- A decoder lets an exception through when its payload has the expected fields, and the
exception escapes the rest of it. -/
theorem escapes_object_bind_iff {f : List (PyStr × PyValue φ) → Decoder α}
    {overflows : List (PyStr × PyValue φ) → Prop}
    (hf : ∀ data, HasExactly data fields → (Escapes (f data) ↔ overflows data)) :
  Escapes (object value fields context >>= f)
    ↔ ∃ data, value = .obj data ∧ HasExactly data fields ∧ overflows data
  := by
  rw [escapes_bind_iff_of_closed not_escapes_object]
  apply exists_congr
  intro data
  rw [object_eq_ok_iff, and_assoc]
  apply and_congr_right
  intro _
  apply and_congr_right
  apply hf

/-- A decoder lets nothing through when nothing escapes the rest of it after its payload has
been found to have the expected fields. -/
theorem not_escapes_object_bind {f : List (PyStr × PyValue φ) → Decoder α}
    (hf : ∀ data, HasExactly data fields → ¬ Escapes (f data)) :
  ¬ Escapes (object value fields context >>= f)
  := by
  rw [escapes_bind_iff_of_closed not_escapes_object]
  rintro ⟨data, hdata, hescapes⟩
  rw [object_eq_ok_iff] at hdata
  apply hf data hdata.2 hescapes

/-- A decoder returns a value when its payload has the expected fields, and the rest of it
returns the value. -/
theorem object_bind_eq_ok_iff {f : List (PyStr × PyValue φ) → Decoder α} {a : α}
    {describes : List (PyStr × PyValue φ) → Prop}
    (hf : ∀ data, HasExactly data fields → (f data = .ok a ↔ describes data)) :
  (object value fields context >>= f) = .ok a
    ↔ ∃ data, value = .obj data ∧ HasExactly data fields ∧ describes data
  := by
  rw [Except.bind_eq_ok_iff]
  apply exists_congr
  intro data
  rw [object_eq_ok_iff, and_assoc]
  apply and_congr_right
  intro _
  apply and_congr_right
  apply hf

/-- A text is read when it is a plain one. -/
@[simp] theorem string_eq_ok_iff {text : String} :
  string value field = .ok text ↔ IsText value text
  := by
  cases value with
  | str s =>
      rw [string, IsText, PyValue.str.injEq]
      split
      · rename_i hs
        constructor
        · simp
        · rintro ⟨rfl, hplain⟩
          simp [PyStr.ofString] at hs
          apply absurd hs hplain.1
      · rename_i hs
        split
        · rename_i hencode
          constructor
          · simp
          · rintro ⟨rfl, -⟩
            rw [PyStr.encode_eq_some_iff.mpr rfl] at hencode
            cases hencode
        · rename_i t hencode
          obtain rfl := PyStr.encode_eq_some_iff.mp hencode
          have hne : t ≠ "" := by
            rintro rfl
            apply hs rfl
          simp only [Except.bind_eq_ok_iff, declared_eq_ok_iff, rejectIf_eq_ok_iff,
            Except.exists_unit_iff, Except.pure_eq_ok_iff, PlainText]
          constructor
          · rintro ⟨hcontrol, rfl⟩
            apply And.intro rfl (And.intro hne _)
            intro c hc hbad
            apply hcontrol ⟨c, hc, hbad⟩
          · rintro ⟨heq, -, hcontrol⟩
            obtain rfl := PyStr.ofString_injective heq
            apply And.intro _ rfl
            rintro ⟨c, hc, hbad⟩
            apply hcontrol c hc hbad
  | _ => simp [string, IsText]

/-- Reading a text lets nothing through. -/
@[simp] theorem not_escapes_string : ¬ Escapes (string value field) := by
  unfold string
  split
  · split
    · simp
    · split
      · simp
      · rw [escapes_bind_iff_left]
        · simp
        · simp
  · simp

/-- An integer is read when it reaches its lower bound. -/
@[simp] theorem integer_eq_ok_iff {minimum n : ℕ} :
  integer value field minimum = .ok n ↔ IsInteger minimum value n
  := by
  cases value with
  | int m =>
      rw [integer, IsInteger, PyValue.int.injEq]
      split
      · constructor
        · simp
        · omega
      · rw [Except.ok.injEq]
        omega
  | _ => simp [integer, IsInteger]

/-- Reading an integer lets nothing through, whatever its size. -/
@[simp] theorem not_escapes_integer {minimum : ℕ} : ¬ Escapes (integer value field minimum) := by
  unfold integer
  split
  · split <;> simp
  · simp

/-- A number is read when it is finite as a float. -/
@[simp] theorem finite_eq_ok_iff {q : ℚ} : finite py value field = .ok q ↔ IsFinite py value q := by
  cases value with
  | int n =>
      rw [finite]
      split
      · rename_i m hm
        simp [IsFinite, hm, eq_comm]
      · rename_i hn
        simp [IsFinite, hn]
  | float x =>
      rw [finite]
      split
      · rename_i r hr
        simp [IsFinite, hr]
      · rename_i hx
        simp [IsFinite, hx]
  | _ => simp [finite, IsFinite]

/-- Reading a number lets an exception through exactly when the number is an integer that is
too large for a float. -/
@[simp] theorem escapes_finite_iff : Escapes (finite py value field) ↔ IsTooLarge value := by
  cases value with
  | int n =>
      rw [finite]
      split
      · rename_i m hm
        simp [IsTooLarge, ← floatOfInt_eq_none_iff, hm]
      · rename_i hn
        simp [IsTooLarge, ← floatOfInt_eq_none_iff, hn]
  | float x =>
      rw [finite]
      split <;> simp [IsTooLarge]
  | _ => simp [finite, IsTooLarge]

/-- A truth value is read when it is one. -/
@[simp] theorem boolean_eq_ok_iff {e : ErrorPayload} {b : Bool} :
  boolean value e = .ok b ↔ value = .bool b
  := by
  cases value <;> simp [boolean]

/-- Reading a truth value lets nothing through. -/
@[simp] theorem not_escapes_boolean {e : ErrorPayload} : ¬ Escapes (boolean value e) := by
  unfold boolean
  split <;> simp

/-- A date and time is read from a text in ISO 8601. -/
@[simp] theorem isoDatetime_eq_ok_iff {text : String} {d : Datetime} :
  isoDatetime py text field = .ok d ↔ py.fromisoformat text = some d
  := by
  unfold isoDatetime
  split <;> simp_all

/-- Reading a date and time lets nothing through. -/
@[simp] theorem not_escapes_isoDatetime {text : String} :
  ¬ Escapes (isoDatetime py text field)
  := by
  unfold isoDatetime
  split <;> simp

/-- An instant is read from a date and time that has a time zone. -/
@[simp] theorem timestamp_eq_ok_iff {d : Datetime} {t : Timestamp} :
  timestamp d field = .ok t ↔ d = .aware t
  := by
  cases d <;> simp [timestamp]

/-- Reading an instant lets nothing through. -/
@[simp] theorem not_escapes_timestamp {d : Datetime} : ¬ Escapes (timestamp d field) := by
  unfold timestamp
  split <;> simp

/-- A member of an enumeration is read from its name. -/
@[simp] theorem enumJson_eq_ok_iff {members : List (String × α)} {a : α} :
  enumJson members value field = .ok a ↔ IsMember members value a
  := by
  simp only [enumJson, Except.bind_eq_ok_iff, string_eq_ok_iff, IsMember]
  apply exists_congr
  intro text
  apply and_congr_right
  intro _
  split
  · rename_i b hb
    rw [hb, Except.pure_eq_ok_iff, Option.some.injEq]
  · rename_i hnone
    rw [hnone]
    simp

/-- Reading a member of an enumeration lets nothing through. -/
@[simp] theorem not_escapes_enumJson {members : List (String × α)} :
  ¬ Escapes (enumJson members value field)
  := by
  rw [enumJson, escapes_bind_iff_left]
  · apply not_escapes_string
  · intro text
    split <;> simp

/-- A position is read from a list of three finite numbers. -/
@[simp] theorem jsonPosition_eq_ok_iff {p : Vector3} :
  jsonPosition py value field = .ok p ↔ IsPosition py value p
  := by
  unfold jsonPosition
  split
  · rename_i x y z
    simp only [Except.bind_eq_ok_iff, finite_eq_ok_iff, Except.pure_eq_ok_iff, IsPosition]
    constructor
    · rintro ⟨a, ha, b, hb, c, hc, rfl⟩
      use x, y, z
    · rintro ⟨_, _, _, heq, ha, hb, hc⟩
      cases heq
      use p.x, ha, p.y, hb, p.z, hc
  · rename_i h
    constructor
    · simp
    · rintro ⟨x, y, z, rfl, -⟩
      apply absurd rfl (h x y z)

/-- Reading a position lets an exception through exactly when one of its coordinates is an
integer too large for a float, those before it being finite numbers. -/
@[simp] theorem escapes_jsonPosition_iff :
  Escapes (jsonPosition py value field) ↔ PositionOverflows py value
  := by
  unfold jsonPosition
  split
  · rename_i x y z
    simp only [escapes_bind_iff, escapes_finite_iff, finite_eq_ok_iff, not_escapes_pure]
    constructor
    · intro h
      use x, y, z, rfl
      simpa using h
    · rintro ⟨_, _, _, heq, h⟩
      cases heq
      simpa using h
  · rename_i h
    constructor
    · simp
    · rintro ⟨x, y, z, rfl, -⟩
      apply absurd rfl (h x y z)

/-- An optional value is null or read by the reader. -/
theorem nullable_eq_ok_iff {reader : PyValue φ → Decoder α} {reads : PyValue φ → α → Prop}
    (hreader : ∀ v a, reader v = .ok a ↔ reads v a) (hnull : ∀ a, ¬ reads .null a)
    {o : Option α} :
  nullable reader value = .ok o ↔ IsNullable reads value o
  := by
  unfold nullable
  split
  · cases o with
    | none => simp [IsNullable]
    | some a => simp [IsNullable, hnull]
  · rename_i hvalue
    simp only [Except.bind_eq_ok_iff, hreader, Except.pure_eq_ok_iff]
    cases o with
    | none => simpa [IsNullable] using hvalue
    | some a => simp [IsNullable]

/-- A reader that lets nothing through lets nothing through of an optional value. -/
@[simp] theorem not_escapes_nullable {reader : PyValue φ → Decoder α}
    (hreader : ∀ v, ¬ Escapes (reader v)) :
  ¬ Escapes (nullable reader value)
  := by
  unfold nullable
  split
  · simp
  · rw [escapes_bind_iff_left]
    · apply hreader
    · simp

/-- An optional text is null or a plain text. -/
@[simp] theorem nullable_string_eq_ok_iff {o : Option String} :
  nullable (fun v => string v field) value = .ok o ↔ IsNullable IsText value o
  := by
  apply nullable_eq_ok_iff
  · intro v t
    apply string_eq_ok_iff
  · rintro t ⟨h, -⟩
    cases h

/-- An optional integer is null or an integer that reaches its lower bound. -/
@[simp] theorem nullable_integer_eq_ok_iff {minimum : ℕ} {o : Option ℕ} :
  nullable (fun v => integer v field minimum) value = .ok o
    ↔ IsNullable (IsInteger minimum) value o
  := by
  apply nullable_eq_ok_iff
  · intro v n
    apply integer_eq_ok_iff
  · rintro n ⟨h, -⟩
    cases h

/-- An optional member of an enumeration is null or the name of a member. -/
@[simp] theorem nullable_enumJson_eq_ok_iff {members : List (String × α)} {o : Option α} :
  nullable (fun v => enumJson members v field) value = .ok o
    ↔ IsNullable (IsMember members) value o
  := by
  apply nullable_eq_ok_iff
  · intro v a
    apply enumJson_eq_ok_iff
  · rintro a ⟨t, ⟨h, -⟩, -⟩
    cases h

/-- A reader that lets nothing through of null lets the same through of an optional value. -/
theorem escapes_nullable_iff {reader : PyValue φ → Decoder α}
    (hnull : ¬ Escapes (reader .null)) :
  Escapes (nullable reader value) ↔ Escapes (reader value)
  := by
  unfold nullable
  split
  · simpa using hnull
  · rw [escapes_bind_iff_left]
    simp

end

end FromJson

end DrawingMachine
