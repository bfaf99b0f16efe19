import FinanceIntelligence.DecimalRounding
import FinanceIntelligence.Formulas
import FinanceIntelligence.Raising

/-!
# The displayed ratios

A ratio is rounded three times: the quotient and the product to 38 digits, and the percentage to
two places. The two first errors are smaller than the distance of the exact percentage from any tie,
unless it is a tie, and then there is no error.

* `tie_or_far` — **how far a ratio is from a tie**.
* `toInt_percentage` — **the percentage is rounded like the exact one**.
-/

namespace FinanceIntelligence

namespace Formula

open Decimal (Context Rounding)

/-- A multiple of a ratio of integers is a tie between two integers, or it is far from all of them:
the denominator says how far. -/
theorem tie_or_far {C B : ℤ} (hB : B ≠ 0) (k n : ℤ) :
    (k : ℚ) * (C / B) = n + 1 / 2 ∨ 1 / (2 * |(B : ℚ)|) ≤ |(k : ℚ) * (C / B) - (n + 1 / 2)| := by
  have hB' : (B : ℚ) ≠ 0 := by exact_mod_cast hB
  have hsplit : (k : ℚ) * (C / B) - (n + 1 / 2) = ((2 * k * C - (2 * n + 1) * B : ℤ) : ℚ) / (2 * B) := by
    push_cast
    field_simp
  obtain hzero | hne := eq_or_ne (2 * k * C - (2 * n + 1) * B) 0
  · refine .inl ?_
    rw [hzero, Int.cast_zero, zero_div] at hsplit
    linarith
  · refine .inr ?_
    rw [hsplit, abs_div, abs_mul, abs_two]
    have hone : (1 : ℚ) ≤ |((2 * k * C - (2 * n + 1) * B : ℤ) : ℚ)| := by
      exact_mod_cast Int.one_le_abs hne
    gcongr

/-- The error of an operation with 38 digits on a number with a bound. -/
theorem abs_working_sub_le {M q : ℚ} (hM : 1 ≤ M) (hq : |q| ≤ M) :
    |workingContext.round q - q| ≤ M / 10 ^ 37 / 2 := by
  have h := workingContext.abs_round_sub_le (e := 0) (by decide) (by simpa using hM) hq
  have hpow : (10 : ℚ) ^ (1 - (workingContext.prec : ℤ)) = 1 / 10 ^ 37 := by
    simp only [workingContext]
    norm_num
  rw [hpow] at h
  linarith

/-- A number with few places that is not too long is kept. -/
theorem working_of_digits {m : ℤ} (hm : |m| < 10 ^ 38) (places : ℕ) (hplaces : places ≤ 8) :
    workingContext.round ((m : ℚ) / 10 ^ places) = m / 10 ^ places := by
  have h := workingContext.round_of_digits (m := m) (e := -(places : ℤ)) hm (by
    simp only [Context.etiny, workingContext]
    omega)
  rwa [zpow_neg, zpow_natCast, ← div_eq_mul_inv] at h

/-- A ratio whose percentage is a tie between two displayed ones is kept. -/
theorem working_of_tie {q : ℚ} {n : ℤ} (h : ((10 ^ 4 : ℤ) : ℚ) * q = n + 1 / 2)
    (hq : |q| ≤ 2 * 10 ^ 28) : workingContext.round q = q := by
  have hdigits : q = ((10 * n + 5 : ℤ) : ℚ) / 10 ^ 5 := by
    push_cast at h ⊢
    linarith
  have hbound : |10 * n + 5| < (10 : ℤ) ^ 38 := by
    have hcast : ((|10 * n + 5| : ℤ) : ℚ) = |q| * 10 ^ 5 := by
      rw [hdigits, abs_div, Int.cast_abs, abs_of_pos (a := (10 : ℚ) ^ 5) (by norm_num)]
      field_simp
    have hlt : ((|10 * n + 5| : ℤ) : ℚ) < 10 ^ 38 := by
      rw [hcast]
      linarith
    exact_mod_cast hlt
  rw [hdigits]
  exact working_of_digits hbound 5 (by norm_num)

/-- **The percentage is rounded like the exact one**, if what it is computed from is off by little,
and by nothing at a tie. -/
theorem toInt_percentage {C B : ℤ} {s M : ℚ} (hB : B ≠ 0) (hM : M = 10 ^ 28 / |(B : ℚ)|)
    (hone : 1 ≤ M) (hC : |(C : ℚ) / B| ≤ 2 * M) (hs : |s - C / B| ≤ 2 * M / 10 ^ 37)
    (hexact : (∃ n : ℤ, (10 ^ 4 : ℤ) * ((C : ℚ) / B) = n + 1 / 2) → s = C / B) :
    workingContext.rounding.toInt (workingContext.mul s 100 * 10 ^ 2) =
      Rounding.halfUp.toInt (100 * ((C : ℚ) / B) * 10 ^ 2) := by
  set q : ℚ := C / B with hq
  have hpos : (0 : ℚ) < |(B : ℚ)| := abs_pos.mpr (by exact_mod_cast hB)
  have hle : M ≤ 10 ^ 28 := by
    rw [hM]
    refine div_le_self (by positivity) ?_
    exact_mod_cast Int.one_le_abs hB
  obtain ⟨n, hn⟩ | hfar := em (∃ n : ℤ, (10 ^ 4 : ℤ) * q = n + 1 / 2)
  · -- a tie has five places at most, and is kept
    have hdigits : q * 100 = ((10 * n + 5 : ℤ) : ℚ) / 10 ^ 3 := by
      push_cast at hn ⊢
      linarith
    have hbound : |10 * n + 5| < (10 : ℤ) ^ 38 := by
      have hcast : ((|10 * n + 5| : ℤ) : ℚ) = |q * 100 * 10 ^ 3| := by
        rw [hdigits, Int.cast_abs]
        congr 1
        field_simp
      have hlt : |q * 100 * 10 ^ 3| < (10 : ℚ) ^ 38 := by
        rw [abs_mul, abs_mul, abs_of_pos (a := (100 : ℚ)) (by norm_num),
          abs_of_pos (a := (10 : ℚ) ^ 3) (by norm_num)]
        linarith
      rw [← hcast] at hlt
      exact_mod_cast hlt
    rw [hexact ⟨n, hn⟩, Context.mul, hdigits, working_of_digits hbound 3 (by norm_num), ← hdigits,
      mul_comm q 100]
    rfl
  · -- otherwise the distance to a tie is larger than the error
    refine Rounding.toInt_eq_of_close _ fun n => ?_
    have htie := (tie_or_far (C := C) hB (10 ^ 4) n).resolve_left fun h => hfar ⟨n, h⟩
    rw [← hq] at htie
    have hs' := abs_le.mp hs
    have hC' := abs_le.mp hC
    have hmul := abs_le.mp (abs_working_sub_le (M := 300 * M) (q := s * 100) (by linarith) (by
      rw [abs_le]
      constructor <;> linarith [hs'.1, hs'.2, hC'.1, hC'.2]))
    have hwidth : 1 / (2 * |(B : ℚ)|) = M / (2 * 10 ^ 28) := by
      rw [hM]
      field_simp
    have hsame : 100 * q * 10 ^ 2 = ((10 ^ 4 : ℤ) : ℚ) * q := by
      push_cast
      ring
    rw [hsame]
    refine lt_of_lt_of_le ?_ htie
    rw [hwidth, abs_lt, Context.mul]
    push_cast
    constructor <;> linarith [hs'.1, hs'.2, hmul.1, hmul.2]

/-- A percentage rounded to two decimals, ties away from zero. -/
def exactDisplay (percentage : ℚ) : ℚ := Rounding.halfUp.toInt (percentage * 10 ^ 2) / 10 ^ 2

/-- The end of a formula returns the exact percentage, rounded. -/
theorem percentResult_eq {C B : ℤ} {s M : ℚ} (hB : B ≠ 0) (hM : M = 10 ^ 28 / |(B : ℚ)|)
    (hone : 1 ≤ M) (hC : |(C : ℚ) / B| ≤ 2 * M) (hs : |s - C / B| ≤ 2 * M / 10 ^ 37)
    (hexact : (∃ n : ℤ, (10 ^ 4 : ℤ) * ((C : ℚ) / B) = n + 1 / 2) → s = C / B) :
    ∃ r, percentResult (workingContext.mul s 100) = .ok r ∧
      r.resultValueDisplay = exactDisplay (100 * (C / B)) := by
  have hround := toInt_percentage hB hM hone hC hs hexact
  have hle : M ≤ 10 ^ 28 := by
    rw [hM]
    refine div_le_self (by positivity) ?_
    exact_mod_cast Int.one_le_abs hB
  have hdigits : (Rounding.halfUp.toInt (100 * ((C : ℚ) / B) * 10 ^ 2)).natAbs < 10 ^ 38 := by
    have herror := abs_le.mp (Rounding.halfUp.abs_toInt_sub_le (100 * ((C : ℚ) / B) * 10 ^ 2))
    have hC' := abs_le.mp hC
    have hlt : |((Rounding.halfUp.toInt (100 * ((C : ℚ) / B) * 10 ^ 2) : ℤ) : ℚ)| < 10 ^ 38 := by
      rw [abs_lt]
      constructor <;> linarith [herror.1, herror.2, hC'.1, hC'.2]
    rw [← Int.cast_abs, Int.abs_eq_natAbs] at hlt
    exact_mod_cast hlt
  have hquantize : workingContext.quantize 2 (workingContext.mul s 100) =
      .ok (exactDisplay (100 * (C / B))) := by
    rw [Context.quantize, hround]
    exact if_pos hdigits
  rw [percentResult, hquantize]
  exact ⟨_, rfl, rfl⟩

/-- The units that a figure may have. -/
def supportedUnits : List String := ["PERCENT", "CURRENCY", "COUNT", "RATIO", "ONE"]

/-- A stored figure is taken as it is, or as a hundredth of it. -/
theorem toWorkingFraction_eq {A : ℤ} {unit : String} (hA : A.natAbs < 10 ^ 28)
    (hunit : unit ∈ supportedUnits) :
    toWorkingFraction (A / 10 ^ 6) unit =
      .ok (A / 10 ^ 6 / if unit = "PERCENT" then 100 else 1) := by
  rw [toWorkingFraction]
  by_cases hpercent : unit = "PERCENT"
  · have hlt : |A| < (10 : ℤ) ^ 38 := by
      rw [Int.abs_eq_natAbs]
      norm_cast
      exact hA.trans (by norm_num)
    have hplaces : ((A : ℚ) / 10 ^ 6) / 100 = A / 10 ^ 8 := by
      rw [div_div]
      norm_num
    rw [if_pos hpercent, if_pos hpercent, Context.div, hplaces, working_of_digits hlt 8 le_rfl]
  · simp only [supportedUnits, List.mem_cons, hpercent, false_or] at hunit
    rw [if_neg hpercent, if_neg hpercent, if_pos (by simpa using hunit), div_one]

/-- **The end of a division**: what `offset` makes of the quotient is off by little from a ratio
with the denominator. -/
theorem quotient_eq {x y : FormulaInput} {A B C : ℤ} {offset : ℚ → ℚ}
    (hx : x.normalizedValue = A / 10 ^ 6) (hy : y.normalizedValue = B / 10 ^ 6)
    (hA : A.natAbs < 10 ^ 28) (hB : B.natAbs < 10 ^ 28) (hunit : x.unit = y.unit)
    (hsupported : x.unit ∈ supportedUnits) (hcurrency : x.currency = y.currency)
    (hscale : x.scale = y.scale) (hne : B ≠ 0)
    (hoffset : (offset = id ∧ C = A) ∨ (offset = (workingContext.sub · 1) ∧ C = A - B)) :
    ∃ r, quotient offset (some x) (some y) = .ok r ∧
      r.resultValueDisplay = exactDisplay (100 * (C / B)) := by
  have hB' : (B : ℚ) ≠ 0 := by exact_mod_cast hne
  have hpos : (0 : ℚ) < |(B : ℚ)| := abs_pos.mpr hB'
  have hbound {n : ℤ} (hn : n.natAbs < 10 ^ 28) : |(n : ℚ)| ≤ 10 ^ 28 := by
    rw [← Int.cast_abs, Int.abs_eq_natAbs]
    exact_mod_cast hn.le
  obtain ⟨M, hM⟩ : ∃ M : ℚ, M = 10 ^ 28 / |(B : ℚ)| := ⟨_, rfl⟩
  have hone : 1 ≤ M := by
    rw [hM, one_le_div hpos]
    exact hbound hB
  have hle : M ≤ 10 ^ 28 := by
    rw [hM]
    refine div_le_self (by positivity) ?_
    exact_mod_cast Int.one_le_abs hne
  have hq : |(A : ℚ) / B| ≤ M := by
    rw [abs_div, hM]
    exact div_le_div_of_nonneg_right (hbound hA) hpos.le
  have hcomparable : comparable x y = .ok () := by
    have hunit' : x.unit ≠ "" := fun h => by
      rw [h] at hsupported
      exact absurd hsupported (by decide)
    rw [comparable, if_neg (by simp [← hunit, hunit']), if_neg (not_not.mpr hcurrency),
      if_neg (not_not.mpr hscale)]
  have hfactor : (if x.unit = "PERCENT" then (100 : ℚ) else 1) ≠ 0 := by
    split <;> norm_num
  have hratio : (A : ℚ) / 10 ^ 6 / (if x.unit = "PERCENT" then 100 else 1) /
      (B / 10 ^ 6 / if x.unit = "PERCENT" then 100 else 1) = A / B := by
    field_simp
  have hcompute : quotient offset (some x) (some y) =
      percentResult (workingContext.mul (offset (workingContext.round (A / B))) 100) := by
    have hdenominator : (B : ℚ) / 10 ^ 6 / (if x.unit = "PERCENT" then 100 else 1) ≠ 0 :=
      div_ne_zero (div_ne_zero hB' (by norm_num)) hfactor
    simp only [quotient, hcomparable, hx, hy, toWorkingFraction_eq hA hsupported,
      toWorkingFraction_eq hB hsupported, ← hunit]
    rw [← hratio, ← Context.div]
    exact if_neg hdenominator
  rw [hcompute]
  have herror := abs_le.mp (abs_working_sub_le hone hq)
  have hq' := abs_le.mp hq
  obtain ⟨rfl, rfl⟩ | ⟨rfl, rfl⟩ := hoffset
  · refine percentResult_eq hne hM hone (by linarith) ?_ ?_
    · rw [id, abs_le]
      constructor <;> linarith [herror.1, herror.2]
    · rintro ⟨n, hn⟩
      exact working_of_tie hn (by linarith)
  · have hsplit : ((A - B : ℤ) : ℚ) / B = A / B - 1 := by
      push_cast
      field_simp
    have hless := abs_le.mp (abs_working_sub_le (M := 3 * M)
      (q := workingContext.round (A / B) - 1) (by linarith) (by
        rw [abs_le]
        constructor <;> linarith [herror.1, herror.2]))
    refine percentResult_eq hne hM hone ?_ ?_ ?_
    · rw [hsplit, abs_le]
      constructor <;> linarith
    · dsimp only [Context.sub]
      rw [hsplit, abs_le]
      constructor <;> linarith [hless.1, hless.2, herror.1, herror.2]
    · rintro ⟨n, hn⟩
      rw [hsplit] at hn ⊢
      -- with one more the ratio itself is a tie, and so is the difference
      have htie : ((10 ^ 4 : ℤ) : ℚ) * (A / B) = ((n + 10 ^ 4 : ℤ) : ℚ) + 1 / 2 := by
        push_cast at hn ⊢
        linarith
      dsimp only [Context.sub]
      rw [working_of_tie htie (by linarith)]
      refine working_of_tie hn ?_
      rw [abs_le]
      constructor <;> linarith

/-- **Displayed ratios are exactly rounded**: of two stored figures that can be compared, the
percentage and the growth are the exact ones, rounded half away from zero to two decimals. -/
theorem displayedRatios_exact {x y : FormulaInput} (hx : Numeric.Fits 28 6 x.normalizedValue)
    (hy : Numeric.Fits 28 6 y.normalizedValue) (hunit : x.unit = y.unit)
    (hsupported : x.unit ∈ supportedUnits) (hcurrency : x.currency = y.currency)
    (hscale : x.scale = y.scale) (hne : y.normalizedValue ≠ 0) :
    (∀ inputs : InputRole → Option FormulaInput,
      inputs .numerator = some x → inputs .denominator = some y →
        (∃ r, loanToDeposit inputs = .ok r ∧ r.resultValueDisplay =
          exactDisplay (100 * (x.normalizedValue / y.normalizedValue))) ∧
        ∃ r, npl inputs = .ok r ∧ r.resultValueDisplay =
          exactDisplay (100 * (x.normalizedValue / y.normalizedValue))) ∧
    ∀ inputs : InputRole → Option FormulaInput,
      inputs .currentValue = some x → inputs .comparisonValue = some y →
        ∃ r, growth inputs = .ok r ∧ r.resultValueDisplay =
          exactDisplay (100 * (x.normalizedValue / y.normalizedValue - 1)) := by
  obtain ⟨A, hxA, hA⟩ := hx
  obtain ⟨B, hyB, hB⟩ := hy
  have hB₀ : B ≠ 0 := fun h => hne (by simp [hyB, h])
  have hB' : (B : ℚ) ≠ 0 := by exact_mod_cast hB₀
  have hratio : x.normalizedValue / y.normalizedValue = A / B := by
    rw [hxA, hyB]
    field_simp
  have hless : x.normalizedValue / y.normalizedValue - 1 = ((A - B : ℤ) : ℚ) / B := by
    rw [hratio]
    push_cast
    field_simp
  have hpercentage := quotient_eq hxA hyB hA hB hunit hsupported hcurrency hscale hB₀
    (.inl ⟨rfl, rfl⟩)
  have hgrowth := quotient_eq hxA hyB hA hB hunit hsupported hcurrency hscale hB₀
    (.inr ⟨rfl, rfl⟩)
  refine ⟨fun inputs hnum hden => ?_, fun inputs hcur hcomp => ?_⟩
  · rw [loanToDeposit, npl, hnum, hden, hratio]
    exact ⟨hpercentage, hpercentage⟩
  · rw [growth, hcur, hcomp, hless]
    exact hgrowth

/-- A figure in lira. -/
def liraFigure (value : ℚ) : FormulaInput where
  id := 1
  candidateId := 2
  metricCode := "TOTAL_LOANS"
  normalizedValue := value
  currency := "TRY"
  unit := "CURRENCY"
  scale := "ONE"
  reportingBasis := .solo

/-- Loans of 200 and deposits of 300. -/
def twoThirds : InputRole → Option FormulaInput
  | .numerator => some (liraFigure 200)
  | .denominator => some (liraFigure 300)
  | _ => none

/-- Two thirds are 66.67 of a hundred. -/
theorem displayedRatios_exact_thirds : ∃ r, loanToDeposit twoThirds = .ok r ∧
    r.resultValueDisplay = exactDisplay (100 * (200 / 300)) ∧
      exactDisplay (100 * (200 / 300)) = 6667 / 100 := by
  obtain ⟨r, hr, hdisplay⟩ := ((displayedRatios_exact (x := liraFigure 200) (y := liraFigure 300)
    ⟨200000000, by simp [liraFigure]; norm_num, by decide⟩
    ⟨300000000, by simp [liraFigure]; norm_num, by decide⟩
    rfl (by decide) rfl rfl (by simp [liraFigure])).1 twoThirds rfl rfl).1
  exact ⟨r, hr, hdisplay, by decide +kernel⟩

end Formula

end FinanceIntelligence
