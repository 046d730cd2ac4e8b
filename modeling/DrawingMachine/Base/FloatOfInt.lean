import Mathlib.Data.Nat.Size
import Mathlib.Algebra.Order.Ring.Nat
import Mathlib.Tactic.Linarith
import Mathlib.Tactic.Ring

/-!
# Integers as floats

The float of an integer: the nearest number with `p` significant bits, of two equally near
ones the one whose last bit is zero. A number that rounds to `2 ^ m` or more has no float.
The numbers without a float are those from `2 ^ m - 2 ^ (m - p - 1)` on: that number is half
way between the greatest float and `2 ^ m`, and rounds to `2 ^ m`.
-/

namespace FloatOfInt

/-- The value of the last significant bit of a number with `p` bits that is near `n`. -/
def lastBit (p n : ℕ) : ℕ := 2 ^ (n.size - p)

/-- The number with `p` significant bits that is nearest to `n`, of two the even one. -/
def round (p n : ℕ) : ℕ :=
  if lastBit p n < 2 * (n % lastBit p n) ∨
      (lastBit p n = 2 * (n % lastBit p n) ∧ n / lastBit p n % 2 = 1) then
    (n / lastBit p n + 1) * lastBit p n
  else
    n / lastBit p n * lastBit p n

/-- The float with `p` significant bits below `2 ^ m` that is nearest to `n`, when there is
one. -/
def ofNat? (p m n : ℕ) : Option ℕ :=
  if round p n < 2 ^ m then some (round p n) else none

/-- The float of an integer, which has its sign. -/
def ofInt? (p m : ℕ) (n : ℤ) : Option ℤ :=
  match ofNat? p m n.natAbs with
  | none => none
  | some magnitude => some (if n < 0 then -(magnitude : ℤ) else magnitude)

section

variable {p m n : ℕ}

/-- The last bit of a number is not zero. -/
theorem lastBit_pos : 0 < lastBit p n := Nat.two_pow_pos _

/-- A number is not rounded below the multiple of its last bit under it. -/
theorem le_round : n / lastBit p n * lastBit p n ≤ round p n := by
  unfold round
  split
  · apply Nat.mul_le_mul_right
    apply Nat.le_succ
  · apply le_rfl

/-- A number is not rounded above the multiple of its last bit over it. -/
theorem round_le : round p n ≤ (n / lastBit p n + 1) * lastBit p n := by
  unfold round
  split
  · apply le_rfl
  · apply Nat.mul_le_mul_right
    apply Nat.le_succ

/-- A number of at most `m` bits, with `p` of them significant, rounds to `2 ^ m` at most. -/
theorem round_le_two_pow (hp : p ≤ m) (h : n < 2 ^ m) : round p n ≤ 2 ^ m := by
  have hsize : n.size ≤ m := Nat.size_le.mpr h
  have hbit : 2 ^ m = 2 ^ (m - (n.size - p)) * lastBit p n := by
    rw [lastBit, ← pow_add]
    congr 1
    omega
  have hquotient : n / lastBit p n < 2 ^ (m - (n.size - p)) := by
    apply Nat.div_lt_of_lt_mul
    rw [mul_comm, ← hbit]
    apply h
  calc
    round p n ≤ (n / lastBit p n + 1) * lastBit p n := round_le
    _ ≤ 2 ^ (m - (n.size - p)) * lastBit p n := Nat.mul_le_mul_right _ hquotient
    _ = 2 ^ m := hbit.symm

/-- A number from `2 ^ m` on does not round below it. -/
theorem two_pow_le_round (hp : 0 < p) (hpm : p ≤ m) (h : 2 ^ m ≤ n) : 2 ^ m ≤ round p n := by
  have hsize : m < n.size := Nat.lt_size.mpr h
  have htop : 2 ^ (p - 1) * lastBit p n = 2 ^ (n.size - 1) := by
    rw [lastBit, ← pow_add]
    congr 1
    omega
  have hle : 2 ^ (n.size - 1) ≤ n := by
    apply Nat.lt_size.mp
    omega
  have hquotient : 2 ^ (p - 1) ≤ n / lastBit p n := by
    rw [Nat.le_div_iff_mul_le lastBit_pos, htop]
    apply hle
  calc
    2 ^ m ≤ 2 ^ (n.size - 1) := Nat.pow_le_pow_right (by omega) (by omega)
    _ = 2 ^ (p - 1) * lastBit p n := htop.symm
    _ ≤ n / lastBit p n * lastBit p n := Nat.mul_le_mul_right _ hquotient
    _ ≤ round p n := le_round

/-- A number of exactly `m` bits rounds below `2 ^ m` exactly when it is closer to the number
of `p` bits under `2 ^ m` than to `2 ^ m`. -/
theorem round_lt_iff_of_size_eq (hp : 0 < p) (hpm : p < m) (h : n.size = m) :
  round p n < 2 ^ m ↔ n < 2 ^ m - 2 ^ (m - p - 1)
  := by
  have hhalf : lastBit p n = 2 * 2 ^ (m - p - 1) := by
    rw [lastBit, h, ← pow_succ']
    congr 1
    omega
  have hwhole : 2 ^ m = 2 ^ p * lastBit p n := by
    rw [lastBit, h, ← pow_add]
    congr 1
    omega
  have heven : 2 ^ p = 2 * 2 ^ (p - 1) := by
    rw [← pow_succ']
    congr 1
    omega
  have hquotient : n / lastBit p n < 2 ^ p := by
    apply Nat.div_lt_of_lt_mul
    rw [mul_comm, ← hwhole, ← h]
    apply Nat.lt_size_self
  have hdivide : n / lastBit p n * lastBit p n + n % lastBit p n = n := by
    rw [mul_comm]
    apply Nat.div_add_mod
  have hrest : n % lastBit p n < lastBit p n := Nat.mod_lt _ lastBit_pos
  have hpos : 0 < lastBit p n := lastBit_pos
  obtain hlt | heq := Nat.lt_or_eq_of_le (Nat.succ_le_of_lt hquotient)
  · have hbelow : (n / lastBit p n + 1) * lastBit p n + lastBit p n ≤ 2 ^ m := by
      rw [hwhole, ← Nat.succ_mul]
      apply Nat.mul_le_mul_right _ hlt
    have hround : round p n ≤ (n / lastBit p n + 1) * lastBit p n := round_le
    have hnext : n < (n / lastBit p n + 1) * lastBit p n := by
      rw [Nat.succ_mul]
      omega
    generalize 2 ^ m = top, 2 ^ (m - p - 1) = half,
      (n / lastBit p n + 1) * lastBit p n = next at *
    constructor <;> intro <;> omega
  · have htop : 2 ^ m = n / lastBit p n * lastBit p n + lastBit p n := by
      rw [hwhole, ← heq, Nat.succ_mul]
    -- the quotient is odd: one more is a power of two
    have hodd : n / lastBit p n % 2 = 1 := by omega
    have hnext : (n / lastBit p n + 1) * lastBit p n = 2 ^ m := by
      rw [htop, Nat.succ_mul]
    rw [round, hnext]
    generalize 2 ^ m = top, 2 ^ (m - p - 1) = half at *
    split_ifs with hup
    · constructor <;> intro <;> omega
    · constructor <;> intro <;> omega

/-- A number rounds below `2 ^ m` exactly when it is below the middle between `2 ^ m` and the
number of `p` bits under it. -/
theorem round_lt_iff (hp : 0 < p) (hpm : p < m) :
  round p n < 2 ^ m ↔ n < 2 ^ m - 2 ^ (m - p - 1)
  := by
  have hhalf : 2 ^ m = 2 * 2 ^ (m - 1) := by
    rw [← pow_succ']
    congr 1
    omega
  have hgap : 2 ^ (m - p - 1) ≤ 2 ^ (m - 1) := Nat.pow_le_pow_right (by omega) (by omega)
  obtain hlt | heq | hgt := Nat.lt_trichotomy n.size m
  · have hn : n < 2 ^ (m - 1) := Nat.size_le.mp (by omega)
    have hround : round p n ≤ 2 ^ (m - 1) := round_le_two_pow (by omega) hn
    have hpos : 0 < 2 ^ (m - 1) := Nat.two_pow_pos _
    generalize 2 ^ m = top, 2 ^ (m - p - 1) = half, 2 ^ (m - 1) = middle at *
    constructor <;> intro <;> omega
  · apply round_lt_iff_of_size_eq hp hpm heq
  · have hn : 2 ^ m ≤ n := Nat.lt_size.mp hgt
    have hround : 2 ^ m ≤ round p n := two_pow_le_round hp hpm.le hn
    generalize 2 ^ m = top, 2 ^ (m - p - 1) = half at *
    constructor <;> intro <;> omega

/-- A number has a float exactly when it is below the middle between `2 ^ m` and the greatest
float. -/
theorem ofNat?_eq_none_iff (hp : 0 < p) (hpm : p < m) :
  ofNat? p m n = none ↔ 2 ^ m - 2 ^ (m - p - 1) ≤ n
  := by
  rw [← not_lt, ← round_lt_iff hp hpm]
  simp [ofNat?]

/-- An integer has no float exactly when its absolute value reaches the middle between
`2 ^ m` and the greatest float. -/
theorem ofInt?_eq_none_iff {k : ℕ} (hp : 0 < p) (hk : p + 1 + k = m) {n : ℤ} :
  ofInt? p m n = none ↔ 2 ^ m - 2 ^ k ≤ n.natAbs
  := by
  have hgap : m - p - 1 = k := by omega
  rw [← hgap, ← ofNat?_eq_none_iff hp (by omega), ofInt?]
  split <;> simp_all

end

end FloatOfInt
