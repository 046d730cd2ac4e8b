import Mathlib.Algebra.Order.Floor.Ring
import Mathlib.Data.Rat.Floor
import Mathlib.Algebra.Order.Round
import Mathlib.Tactic.FieldSimp
import Mathlib.Tactic.IntervalCases
import DrawingMachine.Base.Text

/-!
# Decimal numerals

Rounding to a number of decimals, half to even, and the numerals of numbers with a fixed
number of decimals, as `f"{x:.3f}"` writes them. The value of a numeral is the number,
rounded.
-/

universe u

/-! ### Rounding -/

section Rounding

variable {α : Type u} [Field α] [LinearOrder α] [IsStrictOrderedRing α] [FloorRing α]

/-- A half is written with this numeral. -/
instance atLeastTwo_two : Nat.AtLeastTwo 2 := ⟨by decide⟩

/-- The base of the decimals. -/
instance atLeastTwo_ten : Nat.AtLeastTwo 10 := ⟨by decide⟩

/-- The integer nearest to `x`; a tie goes to the even one. -/
def roundHalfEven (x : α) : ℤ :=
  if Int.fract x < 1 / 2 then ⌊x⌋
  else if 1 / 2 < Int.fract x then ⌊x⌋ + 1
  else if ⌊x⌋ % 2 = 0 then ⌊x⌋
  else ⌊x⌋ + 1

/-- The number `x` rounded to `k` decimals. -/
def roundTo (k : ℕ) (x : α) : α := roundHalfEven (x * 10 ^ k) / 10 ^ k

/-- Rounding moves a number by at most one half. -/
theorem abs_roundHalfEven_sub_le (x : α) : |(roundHalfEven x : α) - x| ≤ 1 / 2 := by
  have hfloor := Int.floor_add_fract x
  have h0 := Int.fract_nonneg x
  have h1 := Int.fract_lt_one x
  have hx : (⌊x⌋ : α) - x = -Int.fract x := by linarith
  have hx' : ((⌊x⌋ + 1 : ℤ) : α) - x = 1 - Int.fract x := by
    push_cast
    linarith
  unfold roundHalfEven
  rw [abs_le]
  split
  · rw [hx]
    constructor <;> linarith
  · split
    · rw [hx']
      constructor <;> linarith
    · split
      · rw [hx]
        constructor <;> linarith
      · rw [hx']
        constructor <;> linarith

omit [IsStrictOrderedRing α] in
/-- Rounding keeps a number nonnegative. -/
theorem roundHalfEven_nonneg {x : α} (h : 0 ≤ x) : 0 ≤ roundHalfEven x := by
  have hf : 0 ≤ ⌊x⌋ := Int.floor_nonneg.mpr h
  unfold roundHalfEven
  split
  · exact hf
  · split
    · omega
    · split <;> omega

/-- A number that is at least an integer is still at least that integer when it is rounded. -/
theorem le_roundHalfEven {n : ℤ} {x : α} (h : (n : α) ≤ x) : n ≤ roundHalfEven x := by
  obtain ⟨hlow, -⟩ := abs_le.mp (abs_roundHalfEven_sub_le x)
  have hlt : ((n - 1 : ℤ) : α) < (roundHalfEven x : ℤ) := by
    push_cast
    linarith
  have := Int.cast_lt.mp hlt
  omega

/-- A number that is at most an integer is still at most that integer when it is rounded. -/
theorem roundHalfEven_le {n : ℤ} {x : α} (h : x ≤ n) : roundHalfEven x ≤ n := by
  obtain ⟨-, hhigh⟩ := abs_le.mp (abs_roundHalfEven_sub_le x)
  have hlt : ((roundHalfEven x : ℤ) : α) < (n + 1 : ℤ) := by
    push_cast
    linarith
  have := Int.cast_lt.mp hlt
  omega

/-- Numbers less than one apart are at most one apart when they are rounded. -/
theorem abs_roundHalfEven_sub_roundHalfEven_le {x y : α} (h : |y - x| < 1) :
  |roundHalfEven y - roundHalfEven x| ≤ 1
  := by
  have hx := abs_le.mp (abs_roundHalfEven_sub_le x)
  have hy := abs_le.mp (abs_roundHalfEven_sub_le y)
  obtain ⟨hlt, hgt⟩ := abs_lt.mp h
  have hupper : ((roundHalfEven y - roundHalfEven x : ℤ) : α) < ((2 : ℤ) : α) := by
    push_cast
    linarith
  have hlower : ((-2 : ℤ) : α) < ((roundHalfEven y - roundHalfEven x : ℤ) : α) := by
    push_cast
    linarith
  rw [abs_le]
  have := Int.cast_lt.mp hupper
  have := Int.cast_lt.mp hlower
  omega

/-- Rounding to `k` decimals moves a number by at most half of the last decimal. -/
theorem abs_roundTo_sub_le (k : ℕ) (x : α) : |roundTo k x - x| ≤ 1 / 2 / 10 ^ k := by
  have hp : (0 : α) < 10 ^ k := by positivity
  have hx : roundTo k x - x = (roundHalfEven (x * 10 ^ k) - x * 10 ^ k) / 10 ^ k := by
    unfold roundTo
    field_simp
  rw [hx, abs_div, abs_of_pos hp]
  exact div_le_div_of_nonneg_right (abs_roundHalfEven_sub_le _) hp.le

/-- The integer part of an opposite, away from the integers. -/
theorem floor_neg_of_fract_ne_zero {x : α} (h : Int.fract x ≠ 0) : ⌊-x⌋ = -⌊x⌋ - 1 := by
  rw [Int.floor_eq_iff]
  have h0 := lt_of_le_of_ne (Int.fract_nonneg x) (Ne.symm h)
  have h1 := Int.fract_lt_one x
  have hfloor := Int.floor_add_fract x
  constructor
  · push_cast
    linarith
  · push_cast
    linarith

/-- An integer is rounded to itself. -/
theorem roundHalfEven_intCast (n : ℤ) : roundHalfEven (n : α) = n := by
  simp [roundHalfEven]

/-- Rounding is symmetric. -/
theorem roundHalfEven_neg (x : α) : roundHalfEven (-x) = -roundHalfEven x := by
  by_cases h : Int.fract x = 0
  · have hx : x = ⌊x⌋ := by
      have := Int.floor_add_fract x
      linarith
    rw [hx, ← Int.cast_neg, roundHalfEven_intCast, roundHalfEven_intCast]
  · have hfl := floor_neg_of_fract_ne_zero h
    have hfr : Int.fract (-x) = 1 - Int.fract x := Int.fract_neg h
    unfold roundHalfEven
    rw [hfl, hfr]
    split_ifs <;> first | omega | linarith

/-- Rounding to `k` decimals is symmetric. -/
theorem roundTo_neg (k : ℕ) (x : α) : roundTo k (-x) = -roundTo k x := by
  unfold roundTo
  rw [neg_mul, roundHalfEven_neg]
  push_cast
  ring

end Rounding

/-! ### Digits -/

/-- The `k` last digits of a number. -/
def lastDigits : ℕ → ℕ → Text
  | 0, _ => []
  | k + 1, n => lastDigits k (n / 10) ++ [Nat.digitChar (n % 10)]

@[simp] theorem length_lastDigits (k n : ℕ) : (lastDigits k n).length = k := by
  induction k generalizing n with
  | zero => rfl
  | succ k ih => simp [lastDigits, ih]

/-- The numeral of `x` with `k` decimals. The sign of a negative number stays when the
number is rounded to zero. -/
def fixedText (k : ℕ) (x : ℚ) : Text :=
  let n := (roundHalfEven (|x| * 10 ^ k)).toNat
  (if x < 0 then ['-'] else []) ++ Nat.toDigits 10 (n / 10 ^ k) ++ '.' :: lastDigits k n

namespace UnicodeData

variable (ucd : UnicodeData)

/-- The number a sequence of digits stands for. -/
def digitsValue (digits : Text) : ℕ :=
  digits.foldl (fun n c => 10 * n + (ucd.decimal c).getD 0) 0

/-- A text of digits. -/
def AllDigits (t : Text) : Prop := ∀ c ∈ t, ucd.isDigit c = true

/-- An ASCII character that is not one of the ten digits is not a digit. -/
theorem decimal_eq_none {c : Char} (hc : c.toNat < 128)
    (h : ¬ ('0'.toNat ≤ c.toNat ∧ c.toNat ≤ '9'.toNat)) :
  ucd.decimal c = none
  := by
  rw [ucd.decimal_ascii c hc, if_neg h]

/-- An ASCII character that is not one of the ten digits is not of the class of digits. -/
theorem isDigit_eq_false {c : Char} (hc : c.toNat < 128)
    (h : ¬ ('0'.toNat ≤ c.toNat ∧ c.toNat ≤ '9'.toNat)) :
  ucd.isDigit c = false
  := by
  simp [isDigit, ucd.decimal_eq_none hc h]

theorem decimal_digitChar {d : ℕ} (h : d < 10) : ucd.decimal (Nat.digitChar d) = some d := by
  rw [ucd.decimal_ascii _ (by interval_cases d <;> decide)]
  interval_cases d <;> rfl

theorem isDigit_digitChar {d : ℕ} (h : d < 10) : ucd.isDigit (Nat.digitChar d) = true := by
  simp [isDigit, ucd.decimal_digitChar h]

@[simp] theorem digitsValue_nil : ucd.digitsValue [] = 0 := rfl

@[simp] theorem digitsValue_append_singleton (t : Text) (c : Char) :
  ucd.digitsValue (t ++ [c]) = 10 * ucd.digitsValue t + (ucd.decimal c).getD 0
  := by
  simp [digitsValue]

/-- The digits of a number stand for it. -/
theorem digitsValue_toDigits (n : ℕ) : ucd.digitsValue (Nat.toDigits 10 n) = n := by
  induction n using Nat.strongRecOn with
  | ind n ih =>
      rw [Nat.toDigits_eq_if (by omega)]
      split
      · next h => simp [digitsValue, ucd.decimal_digitChar h]
      · next h =>
          rw [digitsValue_append_singleton, ih (n / 10) (by omega),
            ucd.decimal_digitChar (Nat.mod_lt n (by omega))]
          simp only [Option.getD_some]
          omega

/-- The digits of a number are digits. -/
theorem allDigits_toDigits (n : ℕ) : ucd.AllDigits (Nat.toDigits 10 n) := by
  induction n using Nat.strongRecOn with
  | ind n ih =>
      rw [Nat.toDigits_eq_if (by omega)]
      split
      · next h => simpa [AllDigits] using ucd.isDigit_digitChar h
      · next h =>
          intro c hc
          rcases List.mem_append.mp hc with hc | hc
          · exact ih (n / 10) (by omega) c hc
          · rw [List.mem_singleton.mp hc]
            exact ucd.isDigit_digitChar (Nat.mod_lt n (by omega))

/-- A number has a digit. -/
theorem toDigits_ne_nil (n : ℕ) : Nat.toDigits 10 n ≠ [] := by
  rw [Nat.toDigits_eq_if (by omega)]
  split <;> simp

/-- A number does not start with white space. -/
theorem isSpace_head_toDigits (n : ℕ) (rest : Text) :
  ∀ c ∈ (Nat.toDigits 10 n ++ rest).head?, Text.isSpace c = false
  := by
  intro c hc
  obtain ⟨d, digits, hdigits⟩ := List.exists_cons_of_ne_nil (toDigits_ne_nil n)
  have hd := ascii.allDigits_toDigits n d (by simp [hdigits])
  rw [hdigits] at hc
  cases hc
  by_contra hspace
  have hnone := ascii.decimal_space c (by simpa using hspace)
  simp [isDigit, hnone] at hd

/-- The last digits of a number stand for its remainder. -/
theorem digitsValue_lastDigits (k n : ℕ) : ucd.digitsValue (lastDigits k n) = n % 10 ^ k := by
  induction k generalizing n with
  | zero => simp [lastDigits, Nat.mod_one]
  | succ k ih =>
      rw [lastDigits, digitsValue_append_singleton, ih,
        ucd.decimal_digitChar (Nat.mod_lt n (by omega)), Option.getD_some, Nat.pow_succ,
        Nat.mul_comm (10 ^ k) 10, Nat.mod_mul]
      omega

/-- The last digits of a number are digits. -/
theorem allDigits_lastDigits (k n : ℕ) : ucd.AllDigits (lastDigits k n) := by
  induction k generalizing n with
  | zero => simp [lastDigits, AllDigits]
  | succ k ih =>
      intro c hc
      rcases List.mem_append.mp hc with hc | hc
      · exact ih (n / 10) c hc
      · rw [List.mem_singleton.mp hc]
        exact ucd.isDigit_digitChar (Nat.mod_lt n (by omega))

end UnicodeData

/-- A number split at the decimal point. -/
theorem whole_add_fraction (k n : ℕ) :
  ((n / 10 ^ k : ℕ) : ℚ) + ((n % 10 ^ k : ℕ) : ℚ) / 10 ^ k = n / 10 ^ k
  := by
  have h := Nat.div_add_mod n (10 ^ k)
  have hq : (10 : ℚ) ^ k * ((n / 10 ^ k : ℕ) : ℚ) + ((n % 10 ^ k : ℕ) : ℚ) = n := by
    exact_mod_cast h
  have hp : (10 : ℚ) ^ k ≠ 0 := by positivity
  field_simp
  linarith

/-- The number without its sign, rounded. -/
theorem natCast_toNat_roundHalfEven (k : ℕ) (x : ℚ) :
  (((roundHalfEven (|x| * 10 ^ k)).toNat : ℕ) : ℚ) / 10 ^ k = roundTo k |x|
  := by
  have hnn : 0 ≤ roundHalfEven (|x| * 10 ^ k) := roundHalfEven_nonneg (by positivity)
  have hcast : (((roundHalfEven (|x| * 10 ^ k)).toNat : ℕ) : ℚ) = roundHalfEven (|x| * 10 ^ k) := by
    exact_mod_cast Int.toNat_of_nonneg hnn
  rw [hcast, roundTo]

/-- The characters of a numeral lie between the minus sign and the digit nine. -/
theorem toNat_of_mem_fixedText {k : ℕ} {x : ℚ} {c : Char} (h : c ∈ fixedText k x) :
  45 ≤ c.toNat ∧ c.toNat ≤ 57
  := by
  have hdigit : ∀ {t : Text}, UnicodeData.ascii.AllDigits t → c ∈ t →
      45 ≤ c.toNat ∧ c.toNat ≤ 57 := by
    intro t ht hc
    have hd := ht c hc
    simp only [UnicodeData.isDigit, UnicodeData.ascii, Option.isSome_ite] at hd
    have : '0'.toNat = 48 := rfl
    have : '9'.toNat = 57 := rfl
    omega
  simp only [fixedText, List.mem_append, List.mem_cons] at h
  rcases h with (h | h) | rfl | h
  · split at h
    · rw [List.mem_singleton.mp h]
      decide
    · cases h
  · exact hdigit (UnicodeData.ascii.allDigits_toDigits _) h
  · decide
  · exact hdigit (UnicodeData.ascii.allDigits_lastDigits k _) h

/-- A numeral is not empty. -/
theorem fixedText_ne_nil (k : ℕ) (x : ℚ) : fixedText k x ≠ [] := by
  simp [fixedText]
