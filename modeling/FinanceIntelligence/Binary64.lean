import Mathlib.Data.Rat.Floor
import Mathlib.Algebra.Order.Floor.Ring
import Mathlib.Tactic.FieldSimp
import Mathlib.Tactic.Linarith
import Mathlib.Tactic.Positivity
import Mathlib.Tactic.Zify

/-!
# Binary floating point and decimal rounding over the rationals

A general layer: the double-precision operations of a program whose values stay
far from the limits of the exponent, as functions on exact rationals. Every
operation rounds its exact result to a 53-bit significand, ties to even.

* `ceil_div` — **a quotient of naturals** is rounded up as the exact one.
-/

namespace FinanceIntelligence

namespace Binary64

/-- The nearest integer, ties to even. -/
def nearest (q : ℚ) : ℤ :=
  let f := q.floor
  let r := q - f
  if r < 1 / 2 then f else if 1 / 2 < r then f + 1 else if f % 2 = 0 then f else f + 1

/-- `2 ^ e` for an exponent of either sign. -/
def pow2 (e : ℤ) : ℚ := if 0 ≤ e then (2 ^ e.toNat : ℕ) else 1 / (2 ^ (-e).toNat : ℕ)

/-- The weight of the last place of the double nearest to `q`. -/
def ulpExponent (q : ℚ) : ℤ :=
  let e : ℤ := (q.num.natAbs.log2 : ℤ) - (q.den.log2 : ℤ) - 52
  if |q| < pow2 (e + 52) then e - 1 else e

/-- The double nearest to `q`. -/
def round (q : ℚ) : ℚ :=
  if q = 0 then 0 else
    let ulp := pow2 (ulpExponent q)
    nearest (q / ulp) * ulp

/-- `x + y`. -/
def add (x y : ℚ) : ℚ := round (x + y)

/-- `x - y`. -/
def sub (x y : ℚ) : ℚ := round (x - y)

/-- `x * y`. -/
def mul (x y : ℚ) : ℚ := round (x * y)

/-- `x / y`. -/
def div (x y : ℚ) : ℚ := round (x / y)

/-- `x % y` for positive `y`; the exact remainder is a double. -/
def mod (x y : ℚ) : ℚ := x - (x / y).floor * y

/-- `x // y` for positive `y`, computed from the remainder. -/
def floorDiv (x y : ℚ) : ℚ :=
  let q := div (sub x (mod x y)) y
  let f : ℚ := q.floor
  if 1 / 2 < q - f then f + 1 else f

/-- `round(x, n)`: the nearest decimal with `n` places, ties to even, read back
as a double. -/
def roundPlaces (x : ℚ) (n : ℕ) : ℚ := round (nearest (x * 10 ^ n) / 10 ^ n)

/-! ### Rounding -/

/-- An integer is its own nearest one. -/
theorem nearest_intCast (z : ℤ) : nearest z = z := by
  have hfloor : (z : ℚ).floor = z := Rat.floor_intCast z
  simp [nearest, hfloor]

/-- The nearest integer is at most a half away. -/
theorem abs_nearest_sub_le (q : ℚ) : |(nearest q : ℚ) - q| ≤ 1 / 2 := by
  have hlow : (q.floor : ℚ) ≤ q := Int.floor_le q
  have hhigh : q < q.floor + 1 := Int.lt_floor_add_one q
  rw [nearest, abs_le]
  split
  · constructor <;> linarith
  · split
    · push_cast
      constructor <;> linarith
    · split
      · constructor <;> linarith
      · push_cast
        constructor <;> linarith

/-- The exponent of a number below a power of two. -/
theorem ulpExponent_le {q : ℚ} {k : ℕ} (h0 : 0 < q) (h : q < 2 ^ k) :
    ulpExponent q ≤ (k : ℤ) - 52 := by
  have hden : 0 < q.den := q.den_pos
  have hnum : q.num.natAbs < q.den * 2 ^ k := by
    have hq : (q.num : ℚ) / q.den < 2 ^ k := by rwa [Rat.num_div_den]
    rw [div_lt_iff₀ (by exact_mod_cast hden)] at hq
    have hz : q.num < 2 ^ k * q.den := by exact_mod_cast hq
    have hpos := Rat.num_pos.mpr h0
    zify
    rw [abs_of_pos hpos]
    linarith
  have hne : q.num.natAbs ≠ 0 := by
    have := Rat.num_pos.mpr h0
    omega
  have hlt : q.num.natAbs < 2 ^ (q.den.log2 + 1 + k) := by
    refine hnum.trans ?_
    rw [pow_add]
    exact Nat.mul_lt_mul_of_pos_right Nat.lt_log2_self (by positivity)
  have hlog : q.num.natAbs.log2 < q.den.log2 + 1 + k := (Nat.log2_lt hne).mpr hlt
  rw [ulpExponent]
  split <;> omega

theorem pow2_neg (k : ℕ) : pow2 (-k) = 1 / 2 ^ k := by
  rw [pow2]
  split
  · have : k = 0 := by omega
    subst this
    simp
  · simp

/-- The double nearest to a number below a power of two. -/
theorem round_eq {q : ℚ} {k : ℕ} (h0 : 0 < q) (h : q < 2 ^ k) (hk : k ≤ 52) :
    ∃ m, 52 - k ≤ m ∧ round q = nearest (q * 2 ^ m) / 2 ^ m := by
  have hle := ulpExponent_le h0 h
  obtain ⟨m, hm⟩ : ∃ m : ℕ, ulpExponent q = -m := ⟨(-ulpExponent q).toNat, by omega⟩
  refine ⟨m, by omega, ?_⟩
  rw [round, if_neg h0.ne', hm, pow2_neg]
  simp only [one_div, div_inv_eq_mul, ← div_eq_mul_inv]

/-- An integer below `2 ^ 52` is a double. -/
theorem round_natCast {n : ℕ} (h : n < 2 ^ 52) : round n = n := by
  obtain rfl | hpos := Nat.eq_zero_or_pos n
  · rfl
  · obtain ⟨m, -, hm⟩ := round_eq (q := n) (by exact_mod_cast hpos) (by exact_mod_cast h) le_rfl
    have hcast : (n : ℚ) * 2 ^ m = ((n * 2 ^ m : ℤ) : ℚ) := by push_cast; rfl
    rw [hm, hcast, nearest_intCast]
    push_cast
    field_simp

/-- Rounding moves a number below `2 ^ k` by half a last place. -/
theorem abs_round_sub_le {q : ℚ} {k : ℕ} (h0 : 0 ≤ q) (h : q < 2 ^ k) (hk : k ≤ 52) :
    |round q - q| ≤ 1 / 2 / 2 ^ (52 - k) := by
  obtain rfl | hpos := h0.eq_or_lt
  · have hzero : round 0 = 0 := if_pos rfl
    rw [hzero, sub_self, abs_zero]
    positivity
  · obtain ⟨m, hkm, hm⟩ := round_eq hpos h hk
    have hhalf := abs_nearest_sub_le (q * 2 ^ m)
    have hscale : round q - q = (nearest (q * 2 ^ m) - q * 2 ^ m) / 2 ^ m := by
      rw [hm]
      field_simp
    rw [hscale, abs_div, abs_of_pos (a := (2 : ℚ) ^ m) (by positivity)]
    gcongr
    norm_num

/-- **The quotient of two naturals** is rounded up to the integer that their exact quotient is
rounded up to, while a last place is smaller than the fractions of the divisor. -/
theorem ceil_div {n s k : ℕ} (hs : 0 < s) (hn : n < 2 ^ k) (hk : k ≤ 52)
    (hfine : s < 2 ^ (52 - k)) : ⌈div n s⌉ = ⌈(n : ℚ) / s⌉ := by
  have hs' : (0 : ℚ) < s := by exact_mod_cast hs
  have hlt : (n : ℚ) / s < 2 ^ k := by
    refine lt_of_le_of_lt (div_le_self (by positivity) (by exact_mod_cast hs)) ?_
    exact_mod_cast hn
  obtain ⟨m, hm⟩ | hdvd := em (s ∣ n)
  · -- an exact multiple stays
    have hq : (n : ℚ) / s = m := by
      rw [hm]
      push_cast
      field_simp
    rw [div, hq, round_natCast]
    rw [hq] at hlt
    refine lt_of_lt_of_le ?_ (Nat.pow_le_pow_right two_pos hk)
    exact_mod_cast hlt
  · -- any other quotient is a fraction of the divisor away from the integers
    have herr := abs_round_sub_le (by positivity) hlt hk
    have hsmall : (1 : ℚ) / 2 / 2 ^ (52 - k) < 1 / s := by
      rw [div_div, div_lt_div_iff₀ (by positivity) hs']
      have : (s : ℚ) < 2 ^ (52 - k) := by exact_mod_cast hfine
      linarith
    have hstrict := abs_lt.mp (lt_of_le_of_lt herr hsmall)
    set c := ⌈(n : ℚ) / s⌉ with hc
    have hupper : (n : ℚ) / s + 1 / s ≤ c := by
      have hle : (n : ℚ) / s ≤ c := Int.le_ceil _
      rw [div_le_iff₀ hs'] at hle
      rw [← add_div, div_le_iff₀ hs']
      have hz : (n : ℤ) ≤ c * s := by exact_mod_cast hle
      have hne : (n : ℤ) ≠ c * s := fun heq =>
        hdvd (by exact_mod_cast (Dvd.intro_left c heq.symm : (s : ℤ) ∣ n))
      exact_mod_cast Int.add_one_le_iff.mpr (lt_of_le_of_ne hz hne)
    have hlower : (c : ℚ) - 1 + 1 / s ≤ (n : ℚ) / s := by
      have hlt' : (c : ℚ) - 1 < (n : ℚ) / s := by
        have := Int.ceil_lt_add_one ((n : ℚ) / s)
        linarith
      rw [lt_div_iff₀ hs'] at hlt'
      rw [le_div_iff₀ hs', add_mul, one_div_mul_cancel hs'.ne']
      have hz : (c - 1) * (s : ℤ) < n := by exact_mod_cast hlt'
      exact_mod_cast Int.add_one_le_iff.mpr hz
    rw [Int.ceil_eq_iff, div]
    constructor <;> linarith [hstrict.1, hstrict.2]

end Binary64

/-! ## Printed decimals -/

namespace Decimal

/-- The digits of `n`, at least `k` of them. -/
def padded (k n : ℕ) : String :=
  let s := toString n
  String.ofList (List.replicate (k - s.length) '0') ++ s

/-- `f"{x:.{k}f}"` for `x ≥ 0`. -/
def fixed (x : ℚ) (k : ℕ) : String :=
  let n := (Binary64.nearest (x * 10 ^ k)).toNat
  toString (n / 10 ^ k) ++ "." ++ padded k (n % 10 ^ k)

/-- Split the digits into groups of three from the right. -/
def groups : ℕ → List Char → List (List Char)
  | 0, l => [l]
  | n + 1, l => if l.length ≤ 3 then [l] else groups n (l.take (l.length - 3)) ++ [l.drop (l.length - 3)]

/-- `f"{n:,}".replace(",", ".")`. -/
def dotted (n : ℕ) : String :=
  let l := (toString n).toList
  String.ofList (List.intercalate ['.'] (groups l.length l))

end Decimal

end FinanceIntelligence
