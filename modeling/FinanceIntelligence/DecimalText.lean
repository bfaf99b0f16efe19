import FinanceIntelligence.DecimalArithmetic
import FinanceIntelligence.PrintedAmounts

/-!
# Decimals as text

A general layer: what `str` and the format specifications of a decimal number print. A decimal is
a rational number with the places that its last digit stands at.

`str` writes an exponent only where the last digit stands far behind the point, so that texts of
numbers with few places are digits, a point and digits.
-/

namespace FinanceIntelligence

namespace Decimal

/-- A minus in front of what is negative. -/
def withSign (q : ℚ) (text : List Char) : String :=
  String.ofList (if q < 0 then '-' :: text else text)

/-- The digits of a decimal and its point, with an exponent where `str` writes one. -/
def placePoint (places : ℕ) (digits : List Char) : List Char :=
  let left : ℤ := digits.length - places
  if -6 < left then
    if left ≤ 0 then "0.".toList ++ List.replicate (-left).toNat '0' ++ digits
    else if places = 0 then digits
    else digits.take left.toNat ++ '.' :: digits.drop left.toNat
  else
    let exponent := "E-".toList ++ Nat.toDigits 10 (1 - left).toNat
    match digits with
    | [] => exponent
    | [d] => d :: exponent
    | d :: rest => d :: '.' :: rest ++ exponent

/-- `str(x)` of a decimal whose last digit stands at a place after the point. -/
def str (places : ℕ) (x : ℚ) : String :=
  withSign x (placePoint places (Nat.toDigits 10 ⌊|x| * 10 ^ places⌋.toNat))

/-- A number below 100 is printed with less than six characters. -/
theorem length_str_two_lt {n : ℕ} (hn : n < 10000) :
    (str 2 ((n : ℚ) / 10 ^ 2)).length < 6 := by
  have hdigits : ⌊|(n : ℚ) / 10 ^ 2| * 10 ^ 2⌋.toNat = n := by
    rw [abs_of_nonneg (by positivity), div_mul_cancel₀ _ (by norm_num)]
    simp
  have hsign : ¬ ((n : ℚ) / 10 ^ 2 < 0) := not_lt.mpr (by positivity)
  have hlength : (Nat.toDigits 10 n).length ≤ 4 :=
    (Nat.length_toDigits_le_iff (by norm_num) (by norm_num)).mpr hn
  rw [str, withSign, hdigits, if_neg hsign, String.length_ofList, placePoint]
  dsimp only
  rw [if_pos (by omega)]
  split
  · simp only [List.length_append, List.length_replicate, String.length_toList]
    have : "0.".length = 2 := rfl
    omega
  · rw [if_neg (by norm_num)]
    simp only [List.length_append, List.length_take, List.length_cons, List.length_drop]
    omega

/-- `f"{x:.4f}"` and the like. -/
def format (places : ℕ) (x : ℚ) : String := withSign x (fixed |x| places).toList

/-- `f"{x:,.2f}"` and the like. -/
def formatGrouped (places : ℕ) (x : ℚ) : String :=
  let n := (Rounding.halfEven.toInt (|x| * 10 ^ places)).toNat
  withSign x (groupThousands ',' (Nat.toDigits 10 (n / 10 ^ places)) ++
    '.' :: (padded places (n % 10 ^ places)).toList)

/-- A tiny figure is printed with an exponent, a small one is not. -/
example : str 10 (15 / 10 ^ 10) = "1.5E-9" ∧ str 6 (15 / 10 ^ 6) = "0.000015" := by decide +kernel

end Decimal

end FinanceIntelligence
