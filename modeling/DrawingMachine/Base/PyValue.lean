import Mathlib.Data.List.Basic
import Mathlib.Data.Option.Basic

/-!
# JSON values with any Python string

JSON values as `json.loads` returns them. A string of Python is a sequence of code points,
and a lone surrogate may be among them: such a string has no UTF-8 encoding, and no `String`
of ours. The keys of an object are strings, in the order of insertion.
-/

universe u

/-- A code point; the surrogates are code points. -/
abbrev CodePoint := Fin 0x110000

/-- A string of Python. -/
abbrev PyStr := List CodePoint

namespace PyStr

/-- Strings are compared by their code points. -/
instance lawfulBEq : LawfulBEq (List CodePoint) := inferInstance

/-- The code point of a character. -/
def codePoint (c : Char) : CodePoint :=
  ⟨c.toNat, by
    have h := c.valid
    simp only [UInt32.isValidChar, Nat.isValidChar] at h
    have hc : c.toNat = c.val.toNat := rfl
    omega⟩

/-- The character of a code point that is no surrogate. -/
def scalar? (p : CodePoint) : Option Char :=
  if h : p.val.isValidChar then some (Char.ofNatAux p.val h) else none

/-- The string with the characters of a text. -/
def ofString (s : String) : PyStr := s.toList.map codePoint

/-- The characters of a string without surrogates. -/
def chars? : PyStr → Option (List Char)
  | [] => some []
  | p :: s =>
      match scalar? p, chars? s with
      | some c, some chars => some (c :: chars)
      | _, _ => none

/-- The text that a string with a UTF-8 encoding is. -/
def encode (s : PyStr) : Option String :=
  match chars? s with
  | some chars => some (String.ofList chars)
  | none => none

/-- A code point is that of a character when the character is its own. -/
theorem scalar?_eq_some_iff {p : CodePoint} {c : Char} : scalar? p = some c ↔ p = codePoint c := by
  unfold scalar?
  constructor
  · intro h
    by_cases hp : p.val.isValidChar
    · rw [dif_pos hp] at h
      obtain rfl := Option.some.inj h
      rfl
    · rw [dif_neg hp] at h
      cases h
  · rintro rfl
    have hvalid : (codePoint c).val.isValidChar := c.valid
    rw [dif_pos hvalid]
    rfl

/-- Distinct characters have distinct code points. -/
theorem codePoint_injective : Function.Injective codePoint := by
  intro a b h
  have ha : scalar? (codePoint a) = some a := scalar?_eq_some_iff.mpr rfl
  have hb : scalar? (codePoint b) = some b := scalar?_eq_some_iff.mpr rfl
  rw [h, hb] at ha
  apply (Option.some.inj ha).symm

/-- The characters of a string are those whose code points it consists of. -/
theorem chars?_eq_some_iff {s : PyStr} {chars : List Char} :
  chars? s = some chars ↔ s = chars.map codePoint
  := by
  induction s generalizing chars with
  | nil => cases chars <;> simp [chars?]
  | cons p s ih =>
      cases chars with
      | nil =>
          rw [chars?]
          split <;> simp
      | cons c chars =>
          rw [chars?, List.map_cons, List.cons.injEq, ← scalar?_eq_some_iff, ← ih]
          split <;> simp_all

/-- A string has a UTF-8 encoding exactly when it is the string of a text. -/
theorem encode_eq_some_iff {s : PyStr} {t : String} : encode s = some t ↔ s = ofString t := by
  rw [ofString, ← chars?_eq_some_iff, encode]
  split
  · rename_i chars h
    rw [h, Option.some.injEq, Option.some.injEq]
    constructor
    · rintro rfl
      simp
    · rintro rfl
      simp
  · rename_i h
    simp [h]

/-- Distinct texts have distinct strings. -/
theorem ofString_injective : Function.Injective ofString := by
  intro a b h
  apply String.toList_injective
  apply (List.map_injective_iff.mpr codePoint_injective) h

end PyStr

/-- A JSON value, with floats of the type `φ`. -/
inductive PyValue (φ : Type u) where
  | null
  | bool (b : Bool)
  | int (n : Int)
  | float (x : φ)
  | str (s : PyStr)
  | arr (items : List (PyValue φ))
  | obj (entries : List (PyStr × PyValue φ))

namespace PyValue

variable {φ : Type u}

/-- The value of an object under a key. -/
def lookup (entries : List (PyStr × PyValue φ)) (key : String) : Option (PyValue φ) :=
  (entries.find? fun entry => entry.1 = PyStr.ofString key).map Prod.snd

/-- The value of an object under a key that it has. -/
def valueAt (entries : List (PyStr × PyValue φ)) (key : String) : PyValue φ :=
  (lookup entries key).getD .null

/-- The keys of an object are exactly the given fields. -/
def HasExactly (entries : List (PyStr × PyValue φ)) (fields : List String) : Prop :=
  (∀ entry ∈ entries, ∃ field ∈ fields, entry.1 = PyStr.ofString field) ∧
    ∀ field ∈ fields, ∃ entry ∈ entries, entry.1 = PyStr.ofString field

instance (entries : List (PyStr × PyValue φ)) (fields : List String) :
    Decidable (HasExactly entries fields) :=
  inferInstanceAs (Decidable (_ ∧ _))

/-- An object has a value under a key exactly when the key is one of its own. -/
theorem lookup_isSome_iff {entries : List (PyStr × PyValue φ)} {key : String} :
  (lookup entries key).isSome = true ↔ ∃ entry ∈ entries, entry.1 = PyStr.ofString key
  := by
  simp [lookup]

section

variable {entries : List (PyStr × PyValue φ)} {fields : List String} {key : String}

/-- An object with the given fields has a value under each of them. -/
theorem HasExactly.lookup_eq (h : HasExactly entries fields) (hkey : key ∈ fields) :
  lookup entries key = some (valueAt entries key)
  := by
  obtain ⟨value, hvalue⟩ := Option.isSome_iff_exists.mp (lookup_isSome_iff.mpr (h.2 key hkey))
  rw [valueAt, hvalue, Option.getD_some]

/-- An object with the given fields has no value under any other key. -/
theorem HasExactly.lookup_eq_none (h : HasExactly entries fields) (hkey : key ∉ fields) :
  lookup entries key = none
  := by
  rw [← Option.not_isSome_iff_eq_none, lookup_isSome_iff]
  rintro ⟨entry, hentry, hname⟩
  obtain ⟨field, hfield, heq⟩ := h.1 entry hentry
  obtain rfl := PyStr.ofString_injective (hname.symm.trans heq)
  apply hkey hfield

/-- An object does not have two different sets of fields. -/
theorem HasExactly.not_of_mem (h : HasExactly entries fields) {others : List String}
    (hkey : key ∈ others) (hnot : key ∉ fields) :
  ¬ HasExactly entries others
  := by
  intro hothers
  have hsome := hothers.lookup_eq hkey
  rw [h.lookup_eq_none hnot] at hsome
  cases hsome

end

end PyValue
