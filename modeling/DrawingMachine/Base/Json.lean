import Mathlib.Data.Rat.Init
import DrawingMachine.Base.Text

/-!
# JSON values

JSON documents as Python holds them after parsing: an integer and a float are both a
rational number here, and a truth value is not a number.
-/

/-- A JSON value. -/
inductive Json where
  | null
  | bool (b : Bool)
  | num (q : ℚ)
  | str (s : String)
  | arr (items : List Json)
  | obj (fields : List (String × Json))

namespace Json

/-- The value of a field of an object. -/
def lookup (fields : List (String × Json)) (key : String) : Option Json :=
  (fields.find? fun field => field.1 == key).map Prod.snd

end Json

/-- How Python prints values, as far as the program relies on it. -/
structure PythonPrinter where
  /-- The text of a value, as `str` prints it. -/
  print : Json → Text
  /-- A text is printed as it is. -/
  print_str : ∀ s, print (.str s) = s.toList
  /-- The text of a number has no line break. -/
  print_num : ∀ q, Text.Unbroken (print (.num q))
