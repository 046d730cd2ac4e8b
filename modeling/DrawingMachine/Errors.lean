import DrawingMachine.Base.Check
import DrawingMachine.Base.Text

/-!
# Errors

The payload every `DrawingMachineError` of the program carries. The details of the
errors modelled here are flat objects of texts; an error raised by a field check names
the field under the key `field`.
-/

namespace DrawingMachine

/-- The category of an error. -/
inductive ErrorCategory where
  | input | configuration | provider | planning | validation | service | hardware
  | permission | internal
  deriving DecidableEq, Repr

/-- The payload of a `DrawingMachineError`. -/
structure ErrorPayload where
  code : String
  category : ErrorCategory
  message : String
  retryable : Bool
  details : List (String × String)
  deriving DecidableEq, Repr

/-- The error of the domain models, without a field path. -/
def invalid (message : String) : ErrorPayload where
  code := "MACHINE_CONTRACT_INVALID"
  category := .input
  message := message
  retryable := false
  details := []

/-- The error of the domain models, naming the field it is about. -/
def invalidField (message field : String) : ErrorPayload :=
  { invalid message with details := [("field", field)] }

/-- The error of a refused permission. -/
def denied (code message : String) : ErrorPayload where
  code := code
  category := .permission
  message := message
  retryable := false
  details := []

/-! ### Field checks -/

/-- A text without control characters that is not empty. -/
def PlainText (s : String) : Prop :=
  s ≠ "" ∧ ∀ c ∈ s.toList, ¬ (c.toNat < 32 ∨ c.toNat = 127)

instance (s : String) : Decidable (PlainText s) :=
  inferInstanceAs (Decidable (_ ∧ _))

/-- A text of exactly 64 lowercase hexadecimal digits. -/
def Sha256Hex (s : String) : Prop :=
  s.toList.length = 64 ∧
    ∀ c ∈ s.toList, ('0'.toNat ≤ c.toNat ∧ c.toNat ≤ '9'.toNat) ∨
      ('a'.toNat ≤ c.toNat ∧ c.toNat ≤ 'f'.toNat)

instance (s : String) : Decidable (Sha256Hex s) :=
  inferInstanceAs (Decidable (_ ∧ _))

/-- The check of a plain text field. The texts of the model are sequences of Unicode
scalar values, so the source's check for lone surrogates never fails here. -/
def checkString (value field : String) : Except ErrorPayload Unit := do
  rejectIf (value = "") (invalidField (field ++ " must be a non-empty plain string") field)
  rejectIf (∃ c ∈ value.toList, c.toNat < 32 ∨ c.toNat = 127)
    (invalidField (field ++ " contains control characters") field)

/-- The check of a plain text field that may be absent. -/
def checkNullableString (value : Option String) (field : String) : Except ErrorPayload Unit :=
  checkSome value fun v => checkString v field

/-- The check of an integer field with a lower bound. -/
def checkInteger (value : Nat) (field : String) (minimum : Nat) : Except ErrorPayload Unit :=
  rejectIf (value < minimum)
    (invalidField (field ++ " must be an integer at least " ++ toString minimum) field)

/-- The check of a digest field. -/
def checkDigest (value field : String) : Except ErrorPayload Unit := do
  checkString value field
  rejectIf (¬ Sha256Hex value)
    (invalidField (field ++ " must be a lowercase SHA-256 digest") field)

/-- A text field passes exactly when it is a plain text. -/
@[simp] theorem checkString_eq_ok_iff {value field : String} :
  checkString value field = .ok () ↔ PlainText value
  := by
  simp [checkString, PlainText]

/-- An optional text field passes exactly when its value, if any, is a plain text. -/
@[simp] theorem checkNullableString_eq_ok_iff {value : Option String} {field : String} :
  checkNullableString value field = .ok () ↔ ∀ v, value = some v → PlainText v
  := by
  simp [checkNullableString]

/-- An integer field passes exactly when it reaches its lower bound. -/
@[simp] theorem checkInteger_eq_ok_iff {value minimum : Nat} {field : String} :
  checkInteger value field minimum = .ok () ↔ minimum ≤ value
  := by
  simp [checkInteger]

/-- A digest field passes exactly when it is a plain text of 64 hexadecimal digits. -/
@[simp] theorem checkDigest_eq_ok_iff {value field : String} :
  checkDigest value field = .ok () ↔ PlainText value ∧ Sha256Hex value
  := by
  simp [checkDigest]

end DrawingMachine
