import FinanceIntelligence.Binary64
import Mathlib.Data.Int.Log
import Mathlib.Algebra.Order.Round
import Mathlib.Tactic.Linarith
import Mathlib.Tactic.FieldSimp

/-!
# Decimal arithmetic of a fixed number of digits

A general layer: numbers are exact rationals, and an operation rounds its exact
result to the digits of a context, or to the places of a database column.

* `Rounding.toInt` — **rounding to an integer**, ties to even or away from zero.
* `Context.round` — rounding to a number of significant digits. A number that has
  no more digits than the context stays as it is (`Context.round_of_digits`).
* `Numeric.store` — **what a `NUMERIC(p, s)` column keeps**: the number rounded
  to `s` places, or nothing when it has more than `p - s` digits in front.
-/

namespace FinanceIntelligence

namespace Decimal

/-- What happens to the digits that do not fit. -/
inductive Rounding where
  /-- to the nearest, ties to the even neighbour -/
  | halfEven
  /-- to the nearest, ties away from zero -/
  | halfUp
  deriving DecidableEq

/-- Rounding to an integer. -/
def Rounding.toInt : Rounding → ℚ → ℤ
  | .halfEven, q => Binary64.nearest q
  | .halfUp, q => if 0 ≤ q then ⌊q + 1 / 2⌋ else -⌊-q + 1 / 2⌋

/-- An integer is rounded to itself. -/
@[simp] theorem Rounding.toInt_intCast (r : Rounding) (n : ℤ) : r.toInt n = n := by
  cases r with
  | halfEven => exact Binary64.nearest_intCast n
  | halfUp =>
    have hhalf : ⌊(1 / 2 : ℚ)⌋ = 0 := by rw [Int.floor_eq_zero_iff]; constructor <;> norm_num
    by_cases hn : (0 : ℚ) ≤ n
    · rw [Rounding.toInt, if_pos hn, Int.floor_intCast_add, hhalf, add_zero]
    · rw [Rounding.toInt, if_neg hn, ← Int.cast_neg, Int.floor_intCast_add, hhalf, add_zero, neg_neg]

/-- An arithmetic context. -/
structure Context where
  /-- significant digits of a result -/
  prec : ℕ
  /-- how results are rounded -/
  rounding : Rounding
  /-- the largest exponent of a leading digit -/
  emax : ℤ

namespace Context

variable (c : Context)

/-- The lowest exponent of a last digit. -/
def etiny : ℤ := -c.emax - c.prec + 1

/-- The exponent of the last digit that is kept of a number. -/
def lastExponent (q : ℚ) : ℤ := max (Int.log 10 |q| - c.prec + 1) c.etiny

/-- The weight of the last digit that is kept of a number. -/
def lastPlace (q : ℚ) : ℚ := (10 : ℚ) ^ c.lastExponent q

/-- A number rounded to the digits of the context. -/
def round (q : ℚ) : ℚ := c.rounding.toInt (q / c.lastPlace q) * c.lastPlace q

theorem lastPlace_pos (q : ℚ) : 0 < c.lastPlace q := zpow_pos (by norm_num) _

@[simp] theorem round_zero : c.round 0 = 0 := by
  have h := c.rounding.toInt_intCast 0
  simp only [Int.cast_zero] at h
  simp [round, h]

/-- A multiple of the last place is kept. -/
theorem round_of_multiple {q : ℚ} {n : ℤ} (h : q = n * c.lastPlace q) : c.round q = q := by
  have hdiv : q / c.lastPlace q = n := by
    rw [div_eq_iff (c.lastPlace_pos q).ne']
    exact h
  rw [round, hdiv, Rounding.toInt_intCast]
  exact h.symm

/-- **A number with no more digits** than the context keeps all of them. -/
theorem round_of_digits {m e : ℤ} (hm : |m| < 10 ^ c.prec) (he : c.etiny ≤ e) :
    c.round (m * (10 : ℚ) ^ e) = m * (10 : ℚ) ^ e := by
  rcases eq_or_ne m 0 with rfl | hm₀
  · simp
  set q : ℚ := m * (10 : ℚ) ^ e with hq
  -- the last place that is kept is no higher than the number's own
  have hlast : c.lastExponent q ≤ e := by
    have habs : |q| = (|m| : ℤ) * (10 : ℚ) ^ e := by
      rw [hq, abs_mul, Int.cast_abs, abs_of_pos (zpow_pos (by norm_num : (0 : ℚ) < 10) e)]
    have hlt : |q| < (10 : ℕ) ^ ((c.prec : ℤ) + e) := by
      have hcast : ((|m| : ℤ) : ℚ) < 10 ^ c.prec := by exact_mod_cast hm
      rw [habs, Nat.cast_ofNat, zpow_add₀ (by norm_num), zpow_natCast]
      exact mul_lt_mul_of_pos_right hcast (zpow_pos (by norm_num) e)
    have hpos : 0 < |q| := abs_pos.mpr (mul_ne_zero (Int.cast_ne_zero.mpr hm₀)
      (zpow_ne_zero e (by norm_num)))
    have hlog := (Int.lt_zpow_iff_log_lt (by norm_num : 1 < 10) hpos).mp hlt
    rw [lastExponent]
    omega
  refine c.round_of_multiple (n := m * 10 ^ (e - c.lastExponent q).toNat) ?_
  push_cast
  rw [lastPlace, mul_assoc, ← zpow_natCast, Int.toNat_of_nonneg (by omega),
    ← zpow_add₀ (by norm_num), sub_add_cancel]

end Context

/-- `getcontext()` of a program that changes nothing. -/
def defaultContext : Context := ⟨28, .halfEven, 999999⟩

/-! ## Decimals -/

/-- What an operation raises. -/
inductive Signal where
  | invalidOperation
  | divisionByZero
  | overflow
  deriving DecidableEq

namespace Context

variable (c : Context)

/-- `x + y` of finite numbers far from the largest exponent. -/
def add (x y : ℚ) : ℚ := c.round (x + y)

/-- `x - y`. -/
def sub (x y : ℚ) : ℚ := c.round (x - y)

/-- `x * y`. -/
def mul (x y : ℚ) : ℚ := c.round (x * y)

/-- `x / y`, for `y ≠ 0`. -/
def div (x y : ℚ) : ℚ := c.round (x / y)

/-- `abs(x)`. -/
def abs (x : ℚ) : ℚ := c.round |x|

/-- `x.quantize(Decimal(10) ** -places)`. -/
def quantize (places : ℕ) (x : ℚ) : Except Signal ℚ :=
  let n := c.rounding.toInt (x * 10 ^ places)
  if n.natAbs < 10 ^ c.prec then .ok (n / 10 ^ places) else .error .invalidOperation

end Context

end Decimal

/-- A value of `decimal.Decimal`. -/
inductive PyDecimal where
  /-- a number -/
  | finite (q : ℚ)
  /-- an infinity -/
  | infinite (negative : Bool)
  /-- not a number, quiet or signaling -/
  | nan (signaling : Bool)
  deriving DecidableEq

namespace PyDecimal

open Decimal (Context Signal)

variable (c : Context)

/-- The exact result of an operation in a context. -/
def ofExact (q : ℚ) : Except Signal PyDecimal :=
  let r := c.round q
  if |r| < 10 ^ (c.emax + 1) then .ok (.finite r) else .error .overflow

variable {c} in
/-- **A result of no more digits** than the context is exact. -/
theorem ofExact_of_digits {m e : ℤ} (hm : |m| < 10 ^ c.prec) (he : c.etiny ≤ e)
    (hmax : c.prec + e ≤ c.emax + 1) :
    ofExact c (m * (10 : ℚ) ^ e) = .ok (.finite (m * (10 : ℚ) ^ e)) := by
  have hlt : |(m : ℚ) * (10 : ℚ) ^ e| < 10 ^ (c.emax + 1) := by
    have hcast : |(m : ℚ)| < 10 ^ c.prec := by exact_mod_cast hm
    calc |(m : ℚ) * (10 : ℚ) ^ e| = |(m : ℚ)| * (10 : ℚ) ^ e := by
          rw [abs_mul, abs_of_pos (zpow_pos (by norm_num : (0 : ℚ) < 10) e)]
      _ < 10 ^ c.prec * (10 : ℚ) ^ e := mul_lt_mul_of_pos_right hcast (zpow_pos (by norm_num) e)
      _ = (10 : ℚ) ^ (c.prec + e) := by rw [zpow_add₀ (by norm_num), zpow_natCast]
      _ ≤ 10 ^ (c.emax + 1) := zpow_le_zpow_right₀ (by norm_num) hmax
  simp only [ofExact, c.round_of_digits hm he, if_pos hlt]

/-- `-x`. -/
def neg : PyDecimal → Except Signal PyDecimal
  | .finite q => ofExact c (-q)
  | .infinite s => .ok (.infinite !s)
  | .nan true => .error .invalidOperation
  | .nan false => .ok (.nan false)

/-- `x * y` for a positive number `y`. -/
def mulPos (y : ℚ) : PyDecimal → Except Signal PyDecimal
  | .finite q => ofExact c (q * y)
  | .infinite s => .ok (.infinite s)
  | .nan true => .error .invalidOperation
  | .nan false => .ok (.nan false)

end PyDecimal

/-! ## Columns -/

namespace Numeric

/-- What a column `NUMERIC(p, s)` keeps of a number: the database rounds to the
places of the column, ties away from zero, and refuses a number that is too long. -/
def store (p s : ℕ) (q : ℚ) : Option ℚ :=
  let n := Decimal.Rounding.halfUp.toInt (q * 10 ^ s)
  if n.natAbs < 10 ^ p then some (n / 10 ^ s) else none

/-- A number that the column can hold: `n` units of its last place. -/
def Fits (p s : ℕ) (q : ℚ) : Prop := ∃ n : ℤ, q = n / 10 ^ s ∧ n.natAbs < 10 ^ p

variable {p s : ℕ} {q : ℚ}

/-- **A number is kept as it is** exactly if the column can hold it. -/
theorem store_eq_self_iff : store p s q = some q ↔ Fits p s q := by
  have hscale : (10 : ℚ) ^ s ≠ 0 := pow_ne_zero s (by norm_num)
  rw [store, Fits]
  constructor
  · intro h
    split at h
    · rename_i hlt
      exact ⟨_, (Option.some.inj h).symm, hlt⟩
    · cases h
  · rintro ⟨n, rfl, hlt⟩
    rw [div_mul_cancel₀ _ hscale, Decimal.Rounding.toInt_intCast, if_pos hlt]

/-- What is kept can be held. -/
theorem fits_of_store {q' : ℚ} (h : store p s q = some q') : Fits p s q' := by
  rw [store] at h
  split at h
  · rename_i hlt
    exact ⟨_, (Option.some.inj h).symm, hlt⟩
  · cases h

/-- A multiple of the last place is kept or refused, never changed. -/
theorem store_of_multiple {n : ℤ} {q' : ℚ} (h : store p s ((n : ℚ) / 10 ^ s) = some q') :
    q' = n / 10 ^ s := by
  rw [store, div_mul_cancel₀ _ (pow_ne_zero s (by norm_num)), Decimal.Rounding.toInt_intCast] at h
  split at h
  · exact (Option.some.inj h).symm
  · cases h

/-- A multiple of the last place can be held if it is not too long. -/
theorem fits_multiple_iff {n : ℤ} : Fits p s ((n : ℚ) / 10 ^ s) ↔ |(n : ℚ) / 10 ^ s| < 10 ^ p / 10 ^ s := by
  have hscale : (0 : ℚ) < 10 ^ s := pow_pos (by norm_num) s
  have habs : |(n : ℚ) / 10 ^ s| < 10 ^ p / 10 ^ s ↔ n.natAbs < 10 ^ p := by
    rw [abs_div, abs_of_pos hscale, div_lt_div_iff_of_pos_right hscale, ← Int.cast_abs,
      Int.abs_eq_natAbs]
    exact_mod_cast Iff.rfl
  rw [habs, ← store_eq_self_iff, store, div_mul_cancel₀ _ hscale.ne',
    Decimal.Rounding.toInt_intCast]
  split <;> simp_all

end Numeric

end FinanceIntelligence
