import FinanceIntelligence.DecimalArithmetic

/-!
# How far rounding goes

A general layer over `DecimalArithmetic`: an operation is off by at most half a unit of its last
place, and a number that is far enough from the middle between two others is rounded to the same
one as what was computed for it.

* `Context.abs_round_sub_le` — **the error of an operation**.
* `Rounding.toInt_eq_of_close` — **rounding a computed number** like the exact one.
-/

namespace FinanceIntelligence

namespace Decimal

/-! ## Integers -/

/-- Rounding to an integer is off by at most a half. -/
theorem Rounding.abs_toInt_sub_le (r : Rounding) (q : ℚ) : |(r.toInt q : ℚ) - q| ≤ 1 / 2 := by
  cases r with
  | halfEven => exact Binary64.abs_nearest_sub_le q
  | halfUp =>
    simp only [Rounding.toInt]
    split
    · have hle := Int.floor_le (q + 1 / 2)
      have hlt := Int.lt_floor_add_one (q + 1 / 2)
      rw [abs_le]
      constructor <;> linarith
    · have hle := Int.floor_le (-q + 1 / 2)
      have hlt := Int.lt_floor_add_one (-q + 1 / 2)
      push_cast
      rw [abs_le]
      constructor <;> linarith

/-- The integer that a number is near to. -/
theorem Rounding.toInt_eq_of_near (r : Rounding) {q : ℚ} {n : ℤ} (h : |(n : ℚ) - q| < 1 / 2) :
    r.toInt q = n := by
  have hself := abs_le.mp (r.abs_toInt_sub_le q)
  have hn := abs_lt.mp h
  have hlow : ((r.toInt q : ℤ) : ℚ) < n + 1 := by linarith [hself.2, hn.1]
  have hhigh : (n : ℚ) < r.toInt q + 1 := by linarith [hself.1, hn.2]
  have hle : r.toInt q < n + 1 := by exact_mod_cast hlow
  have hge : n < r.toInt q + 1 := by exact_mod_cast hhigh
  omega

/-- **A number that is close to the exact one**, closer than any tie, is rounded like it. -/
theorem Rounding.toInt_eq_of_close (r : Rounding) {x y : ℚ}
    (h : ∀ n : ℤ, |x - y| < |y - (n + 1 / 2)|) : r.toInt x = r.toInt y := by
  have hself := abs_le.mp (r.abs_toInt_sub_le y)
  have habove : |y - (r.toInt y + 1 / 2)| = r.toInt y + 1 / 2 - y := by
    rw [abs_of_nonpos (by linarith [hself.1])]
    ring
  have hbelow : |y - ((r.toInt y - 1 : ℤ) + 1 / 2)| = y - r.toInt y + 1 / 2 := by
    push_cast
    rw [abs_of_nonneg (by linarith [hself.2])]
    ring
  have hx := abs_le.mp (le_refl |x - y|)
  have hupper := h (r.toInt y)
  have hlower := h (r.toInt y - 1)
  rw [habove] at hupper
  rw [hbelow] at hlower
  refine r.toInt_eq_of_near (abs_lt.mpr ⟨?_, ?_⟩)
  · linarith [hx.2]
  · linarith [hx.1]

namespace Context

variable (c : Context) {q : ℚ}

theorem abs_round_sub_le_lastPlace (q : ℚ) : |c.round q - q| ≤ c.lastPlace q / 2 := by
  have hpos := c.lastPlace_pos q
  have hhalf := c.rounding.abs_toInt_sub_le (q / c.lastPlace q)
  have hq : c.round q - q =
      (c.rounding.toInt (q / c.lastPlace q) - q / c.lastPlace q) * c.lastPlace q := by
    rw [round, sub_mul, div_mul_cancel₀ _ hpos.ne']
  calc |c.round q - q|
      = |c.rounding.toInt (q / c.lastPlace q) - q / c.lastPlace q| * c.lastPlace q := by
        rw [hq, abs_mul, abs_of_pos hpos]
    _ ≤ 1 / 2 * c.lastPlace q := mul_le_mul_of_nonneg_right hhalf hpos.le
    _ = c.lastPlace q / 2 := by ring

/-- A number that is not rounded to nothing keeps its size, up to a factor. -/
theorem abs_le_of_round_ne_zero (h : c.round q ≠ 0) :
    |c.round q| ≤ 2 * |q| ∧ |q| ≤ 3 / 2 * |c.round q| := by
  have hpos := c.lastPlace_pos q
  have hlast : c.lastPlace q ≤ |c.round q| := by
    have hne : c.rounding.toInt (q / c.lastPlace q) ≠ 0 := fun hzero => h (by simp [round, hzero])
    rw [round, abs_mul, abs_of_pos hpos]
    refine le_mul_of_one_le_left hpos.le ?_
    exact_mod_cast Int.one_le_abs hne
  have herror := c.abs_round_sub_le_lastPlace q
  have hle := abs_sub_abs_le_abs_sub (c.round q) q
  have hge := abs_sub_abs_le_abs_sub q (c.round q)
  rw [abs_sub_comm] at hge
  constructor <;> linarith

/-- Numbers of different sizes are rounded alike only to nothing. -/
theorem round_eq_zero_of_far {x y : ℚ} (h : c.round x = c.round y) (hfar : 3 * |y| < |x|) :
    c.round y = 0 := by
  by_contra hne
  have hx := (c.abs_le_of_round_ne_zero (q := x) (h ▸ hne)).2
  have hy := (c.abs_le_of_round_ne_zero hne).1
  rw [h] at hx
  linarith

/-- The last place of a number below a power of ten. -/
theorem lastPlace_le_of_lt {k : ℤ} (hk : c.etiny ≤ k - c.prec) (hne : q ≠ 0)
    (hq : |q| < (10 : ℚ) ^ k) : c.lastPlace q ≤ (10 : ℚ) ^ (k - c.prec) := by
  have hlog : Int.log 10 |q| < k := by
    refine (Int.lt_zpow_iff_log_lt (by norm_num : 1 < 10) (abs_pos.mpr hne)).mp ?_
    exact_mod_cast hq
  refine zpow_le_zpow_right₀ (by norm_num) (max_le ?_ hk)
  omega

/-- **The error of an operation** whose result is below a power of ten. -/
theorem abs_round_sub_le_of_lt {k : ℤ} (hk : c.etiny ≤ k - c.prec) (hq : |q| < (10 : ℚ) ^ k) :
    |c.round q - q| ≤ (10 : ℚ) ^ (k - c.prec) / 2 := by
  obtain rfl | hne := eq_or_ne q 0
  · rw [round_zero, sub_zero, abs_zero]
    exact div_nonneg (zpow_nonneg (by norm_num) _) (by norm_num)
  · have hplace := c.lastPlace_le_of_lt hk hne hq
    have herror := c.abs_round_sub_le_lastPlace q
    linarith

/-- **The error of an operation** whose result has a bound that is not too small. -/
theorem abs_round_sub_le {e : ℤ} {M : ℚ} (he : c.etiny ≤ e + 1 - c.prec) (hM : (10 : ℚ) ^ e ≤ M)
    (hq : |q| ≤ M) : |c.round q - q| ≤ M * (10 : ℚ) ^ (1 - c.prec : ℤ) / 2 := by
  have hpow : (0 : ℚ) ≤ 10 ^ (1 - c.prec : ℤ) := zpow_nonneg (by norm_num) _
  obtain rfl | hne := eq_or_ne q 0
  · rw [round_zero, sub_zero, abs_zero]
    exact div_nonneg (mul_nonneg ((abs_nonneg _).trans hq) hpow) (by norm_num)
  · have hplace : c.lastPlace q ≤ M * (10 : ℚ) ^ (1 - c.prec : ℤ) := by
      rw [lastPlace, lastExponent]
      obtain hmax | hmax := max_choice (Int.log 10 |q| - c.prec + 1) c.etiny
      · rw [hmax, show Int.log 10 |q| - c.prec + 1 = Int.log 10 |q| + (1 - c.prec) by ring,
          zpow_add₀ (by norm_num)]
        refine mul_le_mul_of_nonneg_right (le_trans ?_ hq) hpow
        exact_mod_cast Int.zpow_log_le_self (by norm_num : 1 < 10) (abs_pos.mpr hne)
      · rw [hmax]
        calc (10 : ℚ) ^ c.etiny ≤ 10 ^ (e + (1 - c.prec : ℤ)) :=
              zpow_le_zpow_right₀ (by norm_num) (by omega)
          _ = 10 ^ e * 10 ^ (1 - c.prec : ℤ) := zpow_add₀ (by norm_num) _ _
          _ ≤ M * 10 ^ (1 - c.prec : ℤ) := mul_le_mul_of_nonneg_right hM hpow
    have herror := c.abs_round_sub_le_lastPlace q
    linarith

end Context

end Decimal

end FinanceIntelligence
