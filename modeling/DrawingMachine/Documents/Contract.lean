import Mathlib.Algebra.Group.Nat.Defs
import Mathlib.Data.List.Dedup
import DrawingMachine.Base.Check
import DrawingMachine.Base.PyTree
import DrawingMachine.Errors

/-!
# The contracts of the durable documents

The validators that the documents of jobs and the messages of workers are read and built with.
The two families of the source differ in the code of their errors, in how much an error says
about the field, and in whether the keys of nested JSON have to be texts: a `Contract` is what
they differ in. A constructor runs the validators on the values of its fields, a decoder runs
the same ones on the values of a JSON object.

A text is a string with a UTF-8 encoding. An integer is printable when it has at most 4300
digits, the limit of Python's conversion to a string.
-/

/-- The floats of Python, as far as it matters which of them are finite. -/
class PyFinite (φ : Type) where
  isFinite : φ → Bool

namespace PyValue

variable {φ : Type} [PyFinite φ]

/-- Python converts an integer to a string. -/
def Printable (n : ℤ) : Prop := n.natAbs < 10 ^ 4300

instance (n : ℤ) : Decidable (Printable n) := inferInstanceAs (Decidable (_ < _))

/-- A value that is no array and no object can be written in UTF-8. -/
def isPlain : PyValue φ → Bool
  | .int n => decide (Printable n)
  | .float x => PyFinite.isFinite x
  | .str s => s.encodable
  | _ => true

/-- All parts of a value can be written, and all keys in UTF-8. -/
def writable (value : PyValue φ) : Bool := all isPlain PyStr.encodable value

/-- What `json.loads` reads back of the canonical JSON of a value: `json.dumps` writes a
finite value with its keys sorted and its characters as they are, `encode("utf-8")` raises a
`UnicodeEncodeError` when a string has a lone surrogate, and `json.loads` reads what
`json.dumps` has written. -/
def wire (value : PyValue φ) : Option (PyValue φ) :=
  if writable value then some (canonical value) else none

end PyValue

namespace DrawingMachine.Document

open PyValue

variable {φ : Type} {α : Type}

instance : Coe String PyStr := ⟨PyStr.ofString⟩

/-! ### Errors -/

/-- The payload of the error of a contract. -/
structure ContractError where
  code : String
  category : ErrorCategory := .input
  message : PyStr
  retryable : Bool := false
  details : List (String × PyValue Empty)

/-- What a validator ends with. -/
abbrev Decoder : Type → Type := Except ContractError

/-- A step that has returned is followed by the rest. -/
@[simp] theorem ok_bind {β : Type} {a : α} {f : α → Decoder β} :
  ((.ok a : Decoder α) >>= f) = f a
  := rfl

/-- A validator that is run for its check alone. -/
def check (validator : Decoder α) : Decoder Unit := do
  let _ ← validator
  return ()

/-- A check passes exactly when its validator accepts something. -/
@[simp] theorem check_eq_ok_iff {validator : Decoder α} :
  check validator = .ok () ↔ ∃ a, validator = .ok a
  := by
  simp only [check, Except.bind_eq_ok_iff, Except.pure_eq_ok_iff, and_true]

/-- The value of a text field. -/
abbrev textField (text : String) : PyValue Empty := .str text

/-- The value of an integer field. -/
abbrev intField (n : ℕ) : PyValue Empty := .int n

/-- The payload of a `DrawingMachineError`, which its constructor does not look at. -/
structure ErrorPayload (φ : Type) where
  code : String
  category : ErrorCategory
  message : String
  retryable : Bool
  details : PyValue φ
  requestId : Option String
  jobId : Option String

/-- What the two families of validators differ in. -/
structure Contract where
  code : String
  /-- An error says what was expected of the field, and not only which field it is. -/
  detailed : Bool
  /-- The keys of nested JSON have to be texts. -/
  checksKeys : Bool
  /-- A path must not have the character of code zero. -/
  rejectsNul : Bool
  /-- What a relative path is a path of. -/
  relativePath : String

/-- The validators of `domain/jobs/models.py`. -/
def jobs : Contract where
  code := "JOB_CONTRACT_INVALID"
  detailed := true
  checksKeys := true
  rejectsNul := false
  relativePath := " must be a canonical relative artifact path"

/-- The validators of `ports/workers.py`. -/
def workers : Contract where
  code := "WORKER_CONTRACT_INVALID"
  detailed := false
  checksKeys := false
  rejectsNul := true
  relativePath := " must be a canonical relative path"

/-- The value of a text field that may be absent. -/
def optionalField : Option String → PyValue φ
  | none => .null
  | some text => .str text

/-- The document of a part that may be absent. -/
def optionalJson (toJson : α → PyValue φ) : Option α → PyValue φ
  | none => .null
  | some a => toJson a

/-- The names of the categories. -/
def categoryValue : ErrorCategory → String
  | .input => "input"
  | .configuration => "configuration"
  | .provider => "provider"
  | .planning => "planning"
  | .validation => "validation"
  | .service => "service"
  | .hardware => "hardware"
  | .permission => "permission"
  | .internal => "internal"

/-- The categories. -/
def categories : List ErrorCategory :=
  [.input, .configuration, .provider, .planning, .validation, .service, .hardware, .permission,
    .internal]

/-- The names of the fields of an error. -/
def errorFields : List String :=
  ["code", "category", "message", "retryable", "details", "request_id", "job_id"]

/-- The document of an error. -/
def errorDocument (error : ErrorPayload φ) : PyValue φ :=
  record
    [("code", .str error.code),
      ("category", .str (categoryValue error.category)),
      ("message", .str error.message),
      ("retryable", .bool error.retryable),
      ("details", error.details),
      ("request_id", optionalField error.requestId),
      ("job_id", optionalField error.jobId)]

namespace Contract

variable (c : Contract)

/-- Raise an error. -/
def refuse (message : PyStr) (details : List (String × PyValue Empty)) : Decoder α :=
  .error { code := c.code, message := message, details := details }

/-- Raise the error of a field. -/
def invalid (field : PyStr) (problem : String) (more : List (String × PyValue Empty)) :
    Decoder α :=
  c.refuse (field ++ PyStr.ofString problem)
    (("field", .str field) :: if c.detailed then more else [])

/-- Raise an error that names no field, when `bad` holds. -/
def invalidIf (bad : Prop) [Decidable bad] (message : PyStr) : Decoder Unit :=
  if bad then c.refuse message [] else .ok ()

/-- Names with commas between them. -/
def joined (names : List PyStr) : PyStr := (names.intersperse (PyStr.ofString ", ")).flatten

/-- Raise the error of keys that a context does not allow or does not have. -/
def invalidKeys (context : PyStr) (problem detail : String) (names : List PyStr) : Decoder α :=
  c.refuse (context ++ PyStr.ofString problem ++ joined names)
    (if c.detailed then [(detail, .arr (names.map .str))] else [("field", .str context)])

/-- The different names of a list, in their order. -/
def sortedNames (names : List PyStr) : List PyStr :=
  names.dedup.mergeSort fun a b => decide (a ≤ b)

/-! ### Fields -/

/-- The entries of a JSON object. -/
def object (value : PyValue φ) (context : PyStr) : Decoder (List (PyStr × PyValue φ)) :=
  match value with
  | .obj entries => .ok entries
  | _ => c.invalid context " must be a JSON object" []

/-- The check that an object has exactly the given fields. -/
def requireExactFields (entries : List (PyStr × PyValue φ)) (expected : List String)
    (context : PyStr) : Decoder Unit :=
  let actual := entries.map Prod.fst
  let expected := expected.map PyStr.ofString
  let unknown := sortedNames (actual.filter fun key => key ∉ expected)
  let missing := sortedNames (expected.filter fun key => key ∉ actual)
  if unknown ≠ [] then
    c.invalidKeys context " has unknown keys: " "unknown_keys" unknown
  else if missing ≠ [] then
    c.invalidKeys context " has missing keys: " "missing_keys" missing
  else
    .ok ()

/-- A text. -/
def string (value : PyValue φ) (field : PyStr) (allowEmpty : Bool := false) : Decoder String :=
  match value with
  | .str s =>
      if allowEmpty = false ∧ s = [] then
        c.invalid field " must not be empty" []
      else
        match PyStr.encode s with
        | some text => .ok text
        | none => c.invalid field " contains invalid Unicode" []
  | _ => c.invalid field " must be a string" []

/-- An integer with a lower bound. -/
def integer (value : PyValue φ) (field : PyStr) (minimum : ℕ) : Decoder ℕ :=
  match value with
  | .int n =>
      if n < minimum then
        c.invalid field (" must be at least " ++ toString minimum) [("minimum", .int minimum)]
      else if ¬ Printable n then
        c.invalid field " integer cannot be serialized" []
      else
        .ok n.toNat
  | _ => c.invalid field " must be an integer" []

/-- A truth value. -/
def boolean (value : PyValue φ) (field : PyStr) : Decoder Bool :=
  match value with
  | .bool b => .ok b
  | _ => c.invalid field " must be a boolean" []

/-- The supported schema version. -/
def schemaVersion (value : PyValue φ) (field : PyStr) : Decoder ℕ := do
  let version ← c.integer value field 1
  if version ≠ 1 then
    c.invalid field (" has unsupported schema version: " ++ toString version)
      [("expected", .int 1), ("received", .int version)]
  else
    return version

/-- A SHA-256 digest. -/
def digest (value : PyValue φ) (field : PyStr) : Decoder String := do
  let text ← c.string value field
  if ¬ Sha256Hex text then
    c.invalid field " must be a lowercase SHA-256 digest" []
  else
    return text

/-- The parts of a path, which has them in their canonical form. -/
def CanonicalParts (path : List Char) : Prop :=
  ∀ part ∈ path.splitOn '/', part ≠ [] ∧ part ≠ ['.'] ∧ part ≠ ['.', '.']

instance (path : List Char) : Decidable (CanonicalParts path) :=
  inferInstanceAs (Decidable (∀ part ∈ _, _))

/-- A relative path in its canonical form. -/
def RelativePath (path : String) : Prop :=
  (c.rejectsNul = true → Char.ofNat 0 ∉ path.toList) ∧ '\\' ∉ path.toList ∧
    CanonicalParts path.toList

instance (path : String) : Decidable (c.RelativePath path) :=
  inferInstanceAs (Decidable (_ ∧ _))

/-- A relative path. -/
def relative (value : PyValue φ) (field : PyStr) : Decoder String := do
  let text ← c.string value field
  if ¬ c.RelativePath text then
    c.invalid field c.relativePath []
  else
    return text

/-- Null, or what is read of another value. -/
def nullable (reads : PyValue φ → Decoder α) (value : PyValue φ) : Decoder (Option α) :=
  match value with
  | .null => .ok none
  | value => do return some (← reads value)

/-- The member of an enumeration, from its name. -/
def enumeration (members : List α) (name : α → String) (value : PyValue φ) (field : PyStr) :
    Decoder α := do
  let text ← c.string value field
  match members.find? fun member => name member = text with
  | some member => return member
  | none => c.invalid field (" has an invalid value: " ++ text) [("value", .str text)]

/-- The items of a JSON array, or an error that names no field. -/
def arrayItems (value : PyValue φ) (message : PyStr) : Decoder (List (PyValue φ)) :=
  match value with
  | .arr items => .ok items
  | _ => c.refuse message []

/-! ### Nested JSON -/

/-- The check of a key of nested JSON. -/
def checkKey (key context : PyStr) : Decoder Unit :=
  if c.checksKeys then
    check (c.string (PyValue.str key : PyValue Empty) context true)
  else
    .ok ()

section

variable [PyFinite φ]

mutual

/-- A JSON value that can be stored. -/
def freeze (value : PyValue φ) (context : PyStr) : Decoder (PyValue φ) :=
  match value with
  | .null => .ok .null
  | .bool b => .ok (.bool b)
  | .int n =>
      if ¬ Printable n then
        c.invalid context " integer cannot be serialized" []
      else
        .ok (.int n)
  | .float x =>
      if ¬ PyFinite.isFinite x then
        c.invalid context " must be finite" []
      else
        .ok (.float x)
  | .str s => do
      let text ← c.string (PyValue.str s : PyValue φ) context true
      return .str text
  | .arr items => do return .arr (← freezeItems items context)
  | .obj entries => do return .obj (← freezeEntries entries context)

/-- The items of an array that can be stored. -/
def freezeItems (items : List (PyValue φ)) (context : PyStr) : Decoder (List (PyValue φ)) :=
  match items with
  | [] => .ok []
  | item :: items => do
      let item ← freeze item (context ++ PyStr.ofString "[]")
      let items ← freezeItems items context
      return item :: items

/-- The entries of an object that can be stored. -/
def freezeEntries (entries : List (PyStr × PyValue φ)) (context : PyStr) :
    Decoder (List (PyStr × PyValue φ)) :=
  match entries with
  | [] => .ok []
  | (key, value) :: entries => do
      c.checkKey key context
      let value ← freeze value (context ++ PyStr.ofString "." ++ key)
      let entries ← freezeEntries entries context
      return (key, value) :: entries

end

/-- The parts of a value and its keys are such that it can be stored. -/
def stored (value : PyValue φ) : Bool :=
  all isPlain (fun key => !c.checksKeys || key.encodable) value

/-- The object can be stored. -/
def Storable (value : PyValue φ) : Prop :=
  (∃ entries, value = .obj entries) ∧ c.stored value = true

/-- A JSON object that can be stored. -/
def freezeObject (value : PyValue φ) (context : PyStr) : Decoder (PyValue φ) :=
  match value with
  | .obj entries => c.freeze (.obj entries) context
  | _ => c.invalid context " must be a JSON object" []

end

/-! ### What the validators accept -/

section

variable {c} {value : PyValue φ} {field context : PyStr}

/-- A refusal is no value. -/
@[simp] theorem refuse_ne_ok {message : PyStr} {details : List (String × PyValue Empty)} {a : α} :
  (c.refuse message details : Decoder α) ≠ .ok a
  := by
  simp [refuse]

/-- The error of a field is no value. -/
@[simp] theorem invalid_ne_ok {problem : String} {more : List (String × PyValue Empty)} {a : α} :
  (c.invalid field problem more : Decoder α) ≠ .ok a
  := by
  simp [invalid]

/-- The error of keys is no value. -/
@[simp] theorem invalidKeys_ne_ok {problem detail : String} {names : List PyStr} {a : α} :
  (c.invalidKeys context problem detail names : Decoder α) ≠ .ok a
  := by
  simp [invalidKeys]

/-- The check passes exactly when its condition fails. -/
@[simp] theorem invalidIf_eq_ok_iff {bad : Prop} [Decidable bad] {message : PyStr} :
  c.invalidIf bad message = .ok () ↔ ¬ bad
  := by
  unfold invalidIf
  split <;> simp_all

/-- The sorted names of a list are none exactly when the list is empty. -/
theorem sortedNames_eq_nil_iff {names : List PyStr} : sortedNames names = [] ↔ names = [] := by
  rw [sortedNames, ← List.length_eq_zero_iff, List.length_mergeSort, List.length_eq_zero_iff]
  apply List.dedup_eq_nil

/-- The entries of an object are those it consists of. -/
@[simp] theorem object_obj {entries : List (PyStr × PyValue φ)} :
  c.object (.obj entries) context = .ok entries
  := rfl

/-- No key is unknown exactly when each is one of the expected fields. -/
theorem unknown_eq_nil_iff {entries : List (PyStr × PyValue φ)} {expected : List String} :
  ((entries.map Prod.fst).filter fun key => key ∉ expected.map PyStr.ofString) = [] ↔
    ∀ entry ∈ entries, ∃ field ∈ expected, entry.1 = PyStr.ofString field
  := by
  simp [List.filter_eq_nil_iff, @eq_comm _ (PyStr.ofString _)]

/-- No field is missing exactly when each of the expected ones is a key. -/
theorem missing_eq_nil_iff {entries : List (PyStr × PyValue φ)} {expected : List String} :
  ((expected.map PyStr.ofString).filter fun key => key ∉ entries.map Prod.fst) = [] ↔
    ∀ field ∈ expected, ∃ entry ∈ entries, entry.1 = PyStr.ofString field
  := by
  simp [List.filter_eq_nil_iff]

/-- The check of exact fields passes exactly when the keys are the given fields. -/
@[simp] theorem requireExactFields_eq_ok_iff {entries : List (PyStr × PyValue φ)}
    {expected : List String} :
  c.requireExactFields entries expected context = .ok () ↔ HasExactly entries expected
  := by
  rw [HasExactly, ← unknown_eq_nil_iff, ← missing_eq_nil_iff, requireExactFields]
  simp only [ne_eq, sortedNames_eq_nil_iff]
  split
  · rename_i h
    apply iff_of_false invalidKeys_ne_ok
    rintro ⟨hnil, -⟩
    apply h hnil
  · rename_i h
    split
    · rename_i h'
      apply iff_of_false invalidKeys_ne_ok
      rintro ⟨-, hnil⟩
      apply h' hnil
    · rename_i h'
      apply iff_of_true rfl
      apply And.intro (not_not.mp h) (not_not.mp h')

/-- Only the string of the empty text is empty. -/
theorem ofString_eq_nil_iff {text : String} : PyStr.ofString text = [] ↔ text = "" := by
  simp [PyStr.ofString]

/-- A text that is not empty is accepted, and nothing else. -/
@[simp] theorem string_eq_ok_iff {text : String} :
  c.string value field = .ok text ↔ value = .str (PyStr.ofString text) ∧ text ≠ ""
  := by
  cases value with
  | str s =>
      rw [string, PyValue.str.injEq]
      by_cases hs : s = []
      · rw [if_pos ⟨rfl, hs⟩]
        apply iff_of_false invalid_ne_ok
        rintro ⟨rfl, hne⟩
        apply hne (ofString_eq_nil_iff.mp hs)
      · rw [if_neg (fun h => hs h.2)]
        cases hencode : PyStr.encode s with
        | none =>
            apply iff_of_false invalid_ne_ok
            rintro ⟨hs', -⟩
            rw [PyStr.encode_eq_some_iff.mpr hs'] at hencode
            cases hencode
        | some text' =>
            obtain rfl := PyStr.encode_eq_some_iff.mp hencode
            rw [ofString_eq_nil_iff] at hs
            simp only [Except.ok.injEq, PyStr.ofString_injective.eq_iff]
            constructor
            · rintro rfl
              use rfl
            · rintro ⟨h, -⟩
              exact h
  | _ => simp [string]

/-- A text is accepted where it may be empty, and nothing else. -/
theorem string_eq_ok_iff_of_allowEmpty {text : String} :
  c.string value field true = .ok text ↔ value = .str (PyStr.ofString text)
  := by
  cases value with
  | str s =>
      rw [string, if_neg (by simp), PyValue.str.injEq]
      cases hencode : PyStr.encode s with
      | none =>
          apply iff_of_false invalid_ne_ok
          rintro hs
          rw [PyStr.encode_eq_some_iff.mpr hs] at hencode
          cases hencode
      | some text' =>
          obtain rfl := PyStr.encode_eq_some_iff.mp hencode
          simp only [Except.ok.injEq, PyStr.ofString_injective.eq_iff]
  | _ => simp [string]

/-- A printable integer that reaches the bound is accepted, and nothing else. -/
@[simp] theorem integer_eq_ok_iff {minimum n : ℕ} :
  c.integer value field minimum = .ok n ↔ value = .int n ∧ minimum ≤ n ∧ Printable n
  := by
  cases value with
  | int m =>
      rw [integer, PyValue.int.injEq]
      by_cases hm : m < minimum
      · rw [if_pos hm]
        apply iff_of_false invalid_ne_ok
        rintro ⟨rfl, hle, -⟩
        omega
      · rw [if_neg hm]
        by_cases hprintable : Printable m
        · rw [if_neg (not_not.mpr hprintable), Except.ok.injEq]
          constructor
          · rintro rfl
            have hm' : m = (m.toNat : ℤ) := by omega
            rw [← hm']
            use rfl
            apply And.intro _ hprintable
            omega
          · rintro ⟨rfl, -, -⟩
            apply Int.toNat_natCast
        · rw [if_pos hprintable]
          apply iff_of_false invalid_ne_ok
          rintro ⟨rfl, -, h⟩
          apply hprintable h
  | _ => simp [integer]

/-- A truth value is accepted, and nothing else. -/
@[simp] theorem boolean_eq_ok_iff {b : Bool} :
  c.boolean value field = .ok b ↔ value = .bool b
  := by
  cases value with
  | bool b' => simp [boolean]
  | _ => simp [boolean]

/-- One is a printable integer. -/
theorem printable_one : Printable 1 := by
  apply Nat.one_lt_pow
  · decide
  · decide

/-- The supported schema version is accepted, and nothing else. -/
@[simp] theorem schemaVersion_eq_ok_iff {n : ℕ} :
  c.schemaVersion value field = .ok n ↔ value = .int 1 ∧ n = 1
  := by
  simp only [schemaVersion, Except.bind_eq_ok_iff, integer_eq_ok_iff]
  constructor
  · rintro ⟨version, ⟨rfl, -, -⟩, h⟩
    split at h
    · cases invalid_ne_ok h
    · rename_i hversion
      obtain rfl := not_not.mp hversion
      cases h
      use rfl
  · rintro ⟨rfl, rfl⟩
    use 1
    apply And.intro _ rfl
    use rfl, Nat.le_refl 1, printable_one

/-- A digest is accepted, and nothing else. -/
@[simp] theorem digest_eq_ok_iff {text : String} :
  c.digest value field = .ok text ↔ value = .str (PyStr.ofString text) ∧ Sha256Hex text
  := by
  simp only [digest, Except.bind_eq_ok_iff, string_eq_ok_iff]
  constructor
  · rintro ⟨text', ⟨rfl, -⟩, h⟩
    split at h
    · cases invalid_ne_ok h
    · rename_i hdigest
      cases h
      apply And.intro rfl (not_not.mp hdigest)
  · rintro ⟨rfl, hdigest⟩
    use text
    rw [if_neg (not_not.mpr hdigest)]
    apply And.intro _ rfl
    use rfl
    rintro rfl
    cases hdigest.1

/-- A relative path in its canonical form is accepted, and nothing else. -/
@[simp] theorem relative_eq_ok_iff {text : String} :
  c.relative value field = .ok text ↔
    value = .str (PyStr.ofString text) ∧ text ≠ "" ∧ c.RelativePath text
  := by
  simp only [relative, Except.bind_eq_ok_iff, string_eq_ok_iff]
  constructor
  · rintro ⟨text', ⟨rfl, hne⟩, h⟩
    split at h
    · cases invalid_ne_ok h
    · rename_i hpath
      cases h
      apply And.intro rfl ⟨hne, not_not.mp hpath⟩
  · rintro ⟨rfl, hne, hpath⟩
    use text
    rw [if_neg (not_not.mpr hpath)]
    apply And.intro ⟨rfl, hne⟩ rfl

/-- A text that is not empty is read as itself. -/
theorem string_text {text : String} (h : text ≠ "") :
  c.string (.str text : PyValue φ) field = .ok text
  := by
  rw [string_eq_ok_iff]
  use rfl

/-- A printable integer that reaches the bound is read as itself. -/
theorem integer_nat {minimum n : ℕ} (hminimum : minimum ≤ n) (h : Printable n) :
  c.integer (.int n : PyValue φ) field minimum = .ok n
  := by
  rw [integer_eq_ok_iff]
  use rfl

/-- A truth value is read as itself. -/
theorem boolean_bool {b : Bool} : c.boolean (.bool b : PyValue φ) field = .ok b := rfl

/-- The supported schema version is read as itself. -/
theorem schemaVersion_nat {n : ℕ} (h : n = 1) :
  c.schemaVersion (.int n : PyValue φ) field = .ok n
  := by
  rw [schemaVersion_eq_ok_iff, h]
  use rfl

/-- A digest is read as itself. -/
theorem digest_text {text : String} (h : Sha256Hex text) :
  c.digest (.str text : PyValue φ) field = .ok text
  := by
  rw [digest_eq_ok_iff]
  use rfl

/-- A relative path is read as itself. -/
theorem relative_text {text : String} (hne : text ≠ "") (h : c.RelativePath text) :
  c.relative (.str text : PyValue φ) field = .ok text
  := by
  rw [relative_eq_ok_iff]
  use rfl

/-- The fields of a document are the expected ones. -/
theorem requireExactFields_of {entries : List (PyStr × PyValue φ)} {expected : List String}
    (h : HasExactly entries expected) :
  c.requireExactFields entries expected context = .ok ()
  := requireExactFields_eq_ok_iff.mpr h

/-- What passes its checks is accepted. -/
theorem acceptIf_of {β : Type} {postInit : β → Decoder Unit} {b : β} (h : postInit b = .ok ()) :
  acceptIf postInit b = .ok ⟨b, h⟩
  := acceptIf_eq_ok_iff.mpr rfl

/-- The check of a key passes exactly when the key is a text or is not looked at. -/
theorem checkKey_eq_ok_iff {key : PyStr} :
  c.checkKey key context = .ok () ↔ (!c.checksKeys || key.encodable) = true
  := by
  rw [checkKey]
  split
  · rename_i h
    simp only [check_eq_ok_iff, string_eq_ok_iff_of_allowEmpty, h, Bool.not_true,
      Bool.false_or, PyStr.encodable_iff, PyValue.str.injEq]
  · rename_i h
    simp [h]

/-- Null is read as nothing. -/
@[simp] theorem nullable_null {reads : PyValue φ → Decoder α} :
  nullable reads .null = .ok none
  := rfl

/-- A value that is not null is read as where it may not be absent. -/
theorem nullable_eq_ok_iff {reads : PyValue φ → Decoder α} (h : value ≠ .null) {a : Option α} :
  nullable reads value = .ok a ↔ ∃ b, reads value = .ok b ∧ some b = a
  := by
  cases value with
  | null => exact absurd rfl h
  | _ => simp only [nullable, Except.bind_eq_ok_iff, Except.pure_eq_ok_iff]

/-- A member of an enumeration is read from its name. -/
theorem enumeration_name {members : List α} {name : α → String} {a : α} (hname : name a ≠ "")
    (hfind : (members.find? fun member => name member = name a) = some a) :
  c.enumeration members name (.str (PyStr.ofString (name a)) : PyValue φ) field = .ok a
  := by
  have hstring : c.string (.str (PyStr.ofString (name a)) : PyValue φ) field = .ok (name a) := by
    apply string_eq_ok_iff.mpr
    use rfl
  rw [enumeration, hstring]
  simp only [bind, Except.bind, hfind]
  rfl

end

section

variable [PyFinite φ] {c}

mutual

/-- A value is stored as it is, when it can be stored. -/
theorem freeze_eq_ok_iff : (value : PyValue φ) → ∀ {context : PyStr} {w : PyValue φ},
    c.freeze value context = .ok w ↔ w = value ∧ c.stored value = true
  | .null => by simp [freeze, stored, all, isPlain, eq_comm]
  | .bool b => by simp [freeze, stored, all, isPlain, eq_comm]
  | .int n => by
      rw [freeze, stored, all, isPlain, decide_eq_true_iff]
      split
      · rename_i h
        apply iff_of_false invalid_ne_ok
        rintro ⟨-, hprintable⟩
        apply h hprintable
      · rename_i h
        rw [Except.ok.injEq, eq_comm, and_iff_left (not_not.mp h)]
  | .float x => by
      rw [freeze, stored, all, isPlain]
      split
      · rename_i h
        apply iff_of_false invalid_ne_ok
        rintro ⟨-, hfinite⟩
        apply h hfinite
      · rename_i h
        rw [Except.ok.injEq, eq_comm, and_iff_left (not_not.mp h)]
  | .str s => by
      simp only [freeze, Except.bind_eq_ok_iff, string_eq_ok_iff_of_allowEmpty, stored, all,
        isPlain, PyStr.encodable_iff, Except.pure_eq_ok_iff, PyValue.str.injEq]
      constructor
      · rintro ⟨text, rfl, rfl⟩
        use rfl, text
      · rintro ⟨rfl, text, rfl⟩
        use text
  | .arr items => by
      simp only [freeze, Except.bind_eq_ok_iff, freezeItems_eq_ok_iff items, stored, all,
        Except.pure_eq_ok_iff]
      constructor
      · rintro ⟨items', ⟨rfl, h⟩, rfl⟩
        use rfl
      · rintro ⟨rfl, h⟩
        use items
  | .obj entries => by
      simp only [freeze, Except.bind_eq_ok_iff, freezeEntries_eq_ok_iff entries, stored, all,
        Except.pure_eq_ok_iff]
      constructor
      · rintro ⟨entries', ⟨rfl, h⟩, rfl⟩
        use rfl
      · rintro ⟨rfl, h⟩
        use entries

/-- Items are stored as they are, when they can be stored. -/
theorem freezeItems_eq_ok_iff : (items : List (PyValue φ)) →
    ∀ {context : PyStr} {items' : List (PyValue φ)},
    c.freezeItems items context = .ok items' ↔ items' = items ∧
      allItems isPlain (fun key => !c.checksKeys || key.encodable) items = true
  | [] => by simp [freezeItems, allItems, eq_comm]
  | item :: items => by
      simp only [freezeItems, Except.bind_eq_ok_iff, freeze_eq_ok_iff item, stored,
        freezeItems_eq_ok_iff items, allItems, Bool.and_eq_true, Except.pure_eq_ok_iff]
      constructor
      · rintro ⟨_, ⟨rfl, h⟩, _, ⟨rfl, hs⟩, rfl⟩
        use rfl
      · rintro ⟨rfl, h, hs⟩
        exact ⟨item, ⟨rfl, h⟩, items, ⟨rfl, hs⟩, rfl⟩

/-- Entries are stored as they are, when they can be stored. -/
theorem freezeEntries_eq_ok_iff : (entries : List (PyStr × PyValue φ)) →
    ∀ {context : PyStr} {entries' : List (PyStr × PyValue φ)},
    c.freezeEntries entries context = .ok entries' ↔ entries' = entries ∧
      allEntries isPlain (fun key => !c.checksKeys || key.encodable) entries = true
  | [] => by simp [freezeEntries, allEntries, eq_comm]
  | (key, value) :: entries => by
      simp only [freezeEntries, Except.bind_eq_ok_iff, Except.exists_unit_iff, checkKey_eq_ok_iff,
        freeze_eq_ok_iff value, stored, freezeEntries_eq_ok_iff entries, allEntries,
        Bool.and_eq_true, Except.pure_eq_ok_iff]
      constructor
      · rintro ⟨hkey, _, ⟨rfl, h⟩, _, ⟨rfl, hs⟩, rfl⟩
        exact ⟨rfl, ⟨hkey, h⟩, hs⟩
      · rintro ⟨rfl, ⟨hkey, h⟩, hs⟩
        exact ⟨hkey, value, ⟨rfl, h⟩, entries, ⟨rfl, hs⟩, rfl⟩

end

/-- An object is stored as it is, when it can be stored. -/
@[simp] theorem freezeObject_eq_ok_iff {value w : PyValue φ} {context : PyStr} :
  c.freezeObject value context = .ok w ↔ w = value ∧ c.Storable value
  := by
  cases value with
  | obj entries => simp [freezeObject, freeze_eq_ok_iff, Storable]
  | _ => simp [freezeObject, Storable]

/-- An object that can be stored is read as itself. -/
theorem freezeObject_of {value : PyValue φ} {context : PyStr} (h : c.Storable value) :
  c.freezeObject value context = .ok value
  := by
  rw [freezeObject_eq_ok_iff]
  use rfl

/-- The same object in another order can be stored, too. -/
theorem Storable.of_same {value w : PyValue φ} (h : c.Storable value) (hsame : Same value w) :
  c.Storable w
  := by
  obtain ⟨⟨entries, rfl⟩, hstored⟩ := h
  obtain ⟨middle, entries', rfl, -, -⟩ := same_obj_iff.mp hsame
  use ⟨entries', rfl⟩
  rw [stored, ← all_of_same hsame]
  exact hstored

end

end Contract

end DrawingMachine.Document
