import FinanceIntelligence.DecimalRounding
import FinanceIntelligence.Formulas
import Mathlib.Algebra.BigOperators.Intervals

/-!
# The part of a year that a period covers

ACT/ACT ISDA counts the days of a period year by year, each as a part of its own year. The code has
one branch for a period within a year and one for a period that ends in another year, which counts
the first and the last year only.

* `actIsda_eq_sum` — **every day counts as a part of its year**, so that the sum is additive.
* `yearFraction_near` — what the code computes, up to its roundings.
* `actIsda_iff` — **the periods that are annualized right**: those of two adjacent years at most.
-/

namespace FinanceIntelligence

open Finset

/-! ## Days and years -/

/-- A later day is in no earlier year. -/
theorem yearOfDay_fst_le {d e : ℕ} (h : d ≤ e) : (yearOfDay d).1 ≤ (yearOfDay e).1 := by
  by_contra hlt
  have hpos := (yearOfDay_snd_lt_daysInYear e).1
  have hmono := daysBeforeYear_le (Nat.le_add_left 1 _) (Nat.lt_of_not_le hlt)
  rw [daysBeforeYear_succ hpos] at hmono
  have hd := daysBeforeYear_yearOfDay d
  have he := daysBeforeYear_yearOfDay e
  have hrest := (yearOfDay_snd_lt_daysInYear e).2
  omega

/-- The days of a year. -/
theorem yearOfDay_fst_eq {y d : ℕ} (hy : 1 ≤ y) (hlo : daysBeforeYear y ≤ d)
    (hhi : d < daysBeforeYear (y + 1)) : (yearOfDay d).1 = y := by
  rw [daysBeforeYear_succ hy] at hhi
  obtain ⟨k, rfl⟩ := Nat.exists_eq_add_of_le hlo
  rw [yearOfDay_add hy (by omega)]

theorem daysInYear_pos (y : ℕ) : 0 < daysInYear y := by
  rw [daysInYear]
  split <;> decide

theorem daysInYear_le (y : ℕ) : daysInYear y ≤ 366 := by
  rw [daysInYear]
  split <;> decide

namespace CalculationService

/-! ## The sum over the years -/

/-- The days of a span that are in a year. -/
def daysIn (startDate endDate y : ℕ) : ℕ :=
  ((Icc startDate endDate).filter fun d => (yearOfDay d).1 = y).card

/-- ACT/ACT ISDA: the days of the span in each year that it touches, as parts of the year. -/
def actIsda (startDate endDate : ℕ) : ℚ :=
  ∑ y ∈ Icc (yearOfDay startDate).1 (yearOfDay endDate).1,
    (daysIn startDate endDate y : ℚ) / daysInYear y

/-- A day as a part of its year. -/
def dayPart (d : ℕ) : ℚ := 1 / daysInYear (yearOfDay d).1

theorem dayPart_pos (d : ℕ) : 0 < dayPart d :=
  one_div_pos.mpr (by exact_mod_cast daysInYear_pos _)

variable {s m e y : ℕ}

/-- **Every day counts** as a part of its year. -/
theorem actIsda_eq_sum (s e : ℕ) : actIsda s e = ∑ d ∈ Icc s e, dayPart d := by
  have hyears : ∀ d ∈ Icc s e, (yearOfDay d).1 ∈ Icc (yearOfDay s).1 (yearOfDay e).1 := by
    intro d hd
    obtain ⟨hs, he⟩ := mem_Icc.mp hd
    exact mem_Icc.mpr ⟨yearOfDay_fst_le hs, yearOfDay_fst_le he⟩
  rw [actIsda, ← sum_fiberwise_of_maps_to hyears]
  refine sum_congr rfl fun y _ => ?_
  calc (daysIn s e y : ℚ) / daysInYear y
      = ∑ d ∈ Icc s e with (yearOfDay d).1 = y, 1 / (daysInYear y : ℚ) := by
        rw [sum_const, daysIn, nsmul_eq_mul, mul_one_div]
    _ = ∑ d ∈ Icc s e with (yearOfDay d).1 = y, dayPart d := by
        refine sum_congr rfl fun d hd => ?_
        rw [dayPart, (mem_filter.mp hd).2]

/-- **The sum is additive** over adjacent spans. -/
theorem actIsda_split (hs : s ≤ m + 1) (he : m ≤ e) :
    actIsda s m + actIsda (m + 1) e = actIsda s e := by
  simp only [actIsda_eq_sum, ← Ico_add_one_right_eq_Icc]
  exact sum_Ico_consecutive dayPart hs (by omega)

/-- Within a year. -/
theorem actIsda_within (hse : s ≤ e) (hs : (yearOfDay s).1 = y) (he : (yearOfDay e).1 = y) :
    actIsda s e = ((e - s + 1 : ℕ) : ℚ) / daysInYear y := by
  have hparts : ∀ d ∈ Icc s e, dayPart d = 1 / daysInYear y := by
    intro d hd
    obtain ⟨hsd, hde⟩ := mem_Icc.mp hd
    have hle := yearOfDay_fst_le hsd
    have hge := yearOfDay_fst_le hde
    rw [dayPart, show (yearOfDay d).1 = y by omega]
  rw [actIsda_eq_sum, sum_congr rfl hparts, sum_const, Nat.card_Icc, nsmul_eq_mul, mul_one_div]
  congr 2
  omega

/-- From a day to the end of its year. -/
theorem actIsda_toYearEnd (s : ℕ) : s ≤ daysBeforeYear ((yearOfDay s).1 + 1) - 1 ∧
    (yearOfDay (daysBeforeYear ((yearOfDay s).1 + 1) - 1)).1 = (yearOfDay s).1 ∧
    actIsda s (daysBeforeYear ((yearOfDay s).1 + 1) - 1) =
      (daysInYear (yearOfDay s).1 - (yearOfDay s).2 : ℚ) / daysInYear (yearOfDay s).1 := by
  obtain ⟨hpos, hlt⟩ := yearOfDay_snd_lt_daysInYear s
  have hsum := daysBeforeYear_yearOfDay s
  have hsucc := daysBeforeYear_succ hpos
  have hend : (yearOfDay (daysBeforeYear ((yearOfDay s).1 + 1) - 1)).1 = (yearOfDay s).1 :=
    yearOfDay_fst_eq hpos (by omega) (by omega)
  refine ⟨by omega, hend, ?_⟩
  rw [actIsda_within (by omega) rfl hend]
  congr 1
  rw [← Nat.cast_sub (by omega)]
  congr 1
  omega

/-- From the start of a year to one of its days. -/
theorem actIsda_fromYearStart (e : ℕ) : daysBeforeYear (yearOfDay e).1 ≤ e ∧
    (yearOfDay (daysBeforeYear (yearOfDay e).1)).1 = (yearOfDay e).1 ∧
    actIsda (daysBeforeYear (yearOfDay e).1) e =
      ((yearOfDay e).2 + 1 : ℚ) / daysInYear (yearOfDay e).1 := by
  obtain ⟨hpos, hlt⟩ := yearOfDay_snd_lt_daysInYear e
  have hsum := daysBeforeYear_yearOfDay e
  have hsucc := daysBeforeYear_succ hpos
  have hstart : (yearOfDay (daysBeforeYear (yearOfDay e).1)).1 = (yearOfDay e).1 :=
    yearOfDay_fst_eq hpos le_rfl (by omega)
  refine ⟨by omega, hstart, ?_⟩
  rw [actIsda_within (by omega) hstart rfl]
  congr 1
  have hdays : e - daysBeforeYear (yearOfDay e).1 + 1 = (yearOfDay e).2 + 1 := by omega
  rw [hdays]
  push_cast
  ring

/-! ## What the code counts -/

/-- The days of the first and of the last year, as parts of their years. -/
def endsFraction (startDate endDate : ℕ) : ℚ :=
  if (yearOfDay startDate).1 = (yearOfDay endDate).1 then
    (endDate - startDate + 1) / daysInYear (yearOfDay startDate).1
  else
    (daysInYear (yearOfDay startDate).1 - (yearOfDay startDate).2) /
        daysInYear (yearOfDay startDate).1 +
      ((yearOfDay endDate).2 + 1) / daysInYear (yearOfDay endDate).1

/-- A number of days of a year, as a part of it. -/
theorem part_mem {a : ℚ} (hlo : 1 ≤ a) (hhi : a ≤ daysInYear y) :
    1 / 1000 ≤ a / daysInYear y ∧ a / daysInYear y ≤ 1 := by
  have hpos : (0 : ℚ) < daysInYear y := by exact_mod_cast daysInYear_pos y
  have hle : (daysInYear y : ℚ) ≤ 366 := by exact_mod_cast daysInYear_le y
  constructor
  · rw [div_le_div_iff₀ (by norm_num) hpos]
    linarith
  · exact (div_le_one hpos).mpr hhi

/-- The days from one on, in its year. -/
theorem firstPart_mem (s : ℕ) : (1 : ℚ) ≤ daysInYear (yearOfDay s).1 - (yearOfDay s).2 ∧
    (daysInYear (yearOfDay s).1 - (yearOfDay s).2 : ℚ) ≤ daysInYear (yearOfDay s).1 := by
  have hlt : ((yearOfDay s).2 + 1 : ℚ) ≤ daysInYear (yearOfDay s).1 := by
    exact_mod_cast (yearOfDay_snd_lt_daysInYear s).2
  have hnonneg : (0 : ℚ) ≤ (yearOfDay s).2 := Nat.cast_nonneg _
  constructor <;> linarith

/-- The days up to one, in its year. -/
theorem lastPart_mem (e : ℕ) : (1 : ℚ) ≤ (yearOfDay e).2 + 1 ∧
    ((yearOfDay e).2 + 1 : ℚ) ≤ daysInYear (yearOfDay e).1 := by
  have hnonneg : (0 : ℚ) ≤ (yearOfDay e).2 := Nat.cast_nonneg _
  refine ⟨by linarith, ?_⟩
  exact_mod_cast (yearOfDay_snd_lt_daysInYear e).2

/-- The days of a span within a year. -/
theorem withinPart_mem (hse : s ≤ e) (hyear : (yearOfDay s).1 = (yearOfDay e).1) :
    (1 : ℚ) ≤ (e : ℚ) - s + 1 ∧ ((e : ℚ) - s + 1) ≤ daysInYear (yearOfDay s).1 := by
  have hs := daysBeforeYear_yearOfDay s
  have he := daysBeforeYear_yearOfDay e
  have hlt := (yearOfDay_snd_lt_daysInYear e).2
  rw [← hyear] at he hlt
  have hdays : e + 1 ≤ s + daysInYear (yearOfDay s).1 := by omega
  have hdays' : (e + 1 : ℚ) ≤ s + daysInYear (yearOfDay s).1 := by exact_mod_cast hdays
  have hse' : (s : ℚ) ≤ e := by exact_mod_cast hse
  constructor <;> linarith

/-- What the code counts is neither little nor more than two years. -/
theorem endsFraction_mem (hse : s ≤ e) : 1 / 1000 ≤ endsFraction s e ∧ endsFraction s e ≤ 2 := by
  rw [endsFraction]
  split
  · rename_i hyear
    have hpart := part_mem (withinPart_mem hse hyear).1 (withinPart_mem hse hyear).2
    exact ⟨hpart.1, by linarith [hpart.2]⟩
  · have hfirst := part_mem (firstPart_mem s).1 (firstPart_mem s).2
    have hlast := part_mem (lastPart_mem e).1 (lastPart_mem e).2
    constructor <;> linarith [hfirst.1, hfirst.2, hlast.1, hlast.2]

/-- **Two adjacent years at most**: nothing is left out. -/
theorem actIsda_eq_endsFraction (hse : s ≤ e) (h : (yearOfDay e).1 ≤ (yearOfDay s).1 + 1) :
    actIsda s e = endsFraction s e := by
  rw [endsFraction]
  split
  · rename_i hyear
    rw [actIsda_within hse rfl hyear.symm]
    push_cast [Nat.cast_sub hse]
    rfl
  · rename_i hyear
    have hnext : (yearOfDay e).1 = (yearOfDay s).1 + 1 := by
      have hle := yearOfDay_fst_le hse
      omega
    obtain ⟨hs, -, hfirst⟩ := actIsda_toYearEnd s
    obtain ⟨he, -, hlast⟩ := actIsda_fromYearStart e
    rw [hnext] at he hlast
    have hpos : 1 ≤ daysBeforeYear ((yearOfDay s).1 + 1) := by
      rw [daysBeforeYear_succ (yearOfDay_snd_lt_daysInYear s).1]
      exact le_add_left (daysInYear_pos _)
    rw [← actIsda_split (m := daysBeforeYear ((yearOfDay s).1 + 1) - 1) (by omega) (by omega),
      hfirst, Nat.sub_add_cancel hpos, hlast, hnext]

/-- **More than two years**: at least a year in the middle is left out. -/
theorem endsFraction_add_one_le (h : (yearOfDay s).1 + 2 ≤ (yearOfDay e).1) :
    endsFraction s e + 1 ≤ actIsda s e := by
  obtain ⟨hs, -, hfirst⟩ := actIsda_toYearEnd s
  obtain ⟨he, -, hlast⟩ := actIsda_fromYearStart e
  have hyear := (yearOfDay_snd_lt_daysInYear s).1
  have hsucc := daysBeforeYear_succ (y := (yearOfDay s).1 + 1) (by omega)
  have hsucc' := daysBeforeYear_succ hyear
  have hpos := daysInYear_pos (yearOfDay s).1
  have hpos' := daysInYear_pos ((yearOfDay s).1 + 1)
  have hmono := daysBeforeYear_le (Nat.le_add_left 1 _) h
  -- the year after the first one
  have hmiddle : actIsda (daysBeforeYear ((yearOfDay s).1 + 1))
      (daysBeforeYear ((yearOfDay s).1 + 1 + 1) - 1) = 1 := by
    rw [actIsda_within (y := (yearOfDay s).1 + 1) (by omega)
      (yearOfDay_fst_eq (by omega) le_rfl (by omega))
      (yearOfDay_fst_eq (by omega) (by omega) (by omega)), hsucc]
    have hdays : daysBeforeYear ((yearOfDay s).1 + 1) + daysInYear ((yearOfDay s).1 + 1) - 1 -
        daysBeforeYear ((yearOfDay s).1 + 1) + 1 = daysInYear ((yearOfDay s).1 + 1) := by omega
    rw [hdays]
    exact div_self (by exact_mod_cast hpos'.ne')
  have hrest : 0 ≤ actIsda (daysBeforeYear ((yearOfDay s).1 + 1 + 1))
      (daysBeforeYear (yearOfDay e).1 - 1) := by
    rw [actIsda_eq_sum]
    exact sum_nonneg fun d _ => (dayPart_pos d).le
  have hsplit := actIsda_split (s := s) (m := daysBeforeYear ((yearOfDay s).1 + 1) - 1) (e := e)
    (by omega) (by omega)
  have hsplit' := actIsda_split (s := daysBeforeYear ((yearOfDay s).1 + 1))
    (m := daysBeforeYear ((yearOfDay s).1 + 1 + 1) - 1) (e := e) (by omega) (by omega)
  have hsplit'' := actIsda_split (s := daysBeforeYear ((yearOfDay s).1 + 1 + 1))
    (m := daysBeforeYear (yearOfDay e).1 - 1) (e := e) (by omega) (by omega)
  rw [Nat.sub_add_cancel (by omega)] at hsplit hsplit' hsplit''
  rw [endsFraction, if_neg (by omega), ← hfirst, ← hlast]
  linarith

/-! ## The roundings -/

/-- Equal to the working precision: in 26 of the 28 digits of the context. -/
def ToWorkingPrecision (x y : ℚ) : Prop := |x - y| ≤ |y| / 10 ^ 26

/-- The error of an operation of the default context. -/
theorem abs_default_round_sub_le {q : ℚ} (h : 1 / 1000 ≤ q) :
    |Decimal.defaultContext.round q - q| ≤ q / (2 * 10 ^ 27) := by
  have hround := Decimal.defaultContext.abs_round_sub_le (e := -3) (M := q) (q := q) (by decide)
    (le_trans (by norm_num) h) (abs_of_nonneg (le_trans (by norm_num) h)).le
  have hpow : (10 : ℚ) ^ (1 - (Decimal.defaultContext.prec : ℤ)) = 1 / 10 ^ 27 := by
    simp only [Decimal.defaultContext]
    norm_num
  rw [hpow] at hround
  linarith

/-- The code, with the days of the year by their names. -/
theorem yearFraction_eq (s e : ℕ) : yearFraction s e =
    if (yearOfDay s).1 = (yearOfDay e).1 then
      Decimal.defaultContext.div (e - s + 1) (daysInYear (yearOfDay s).1)
    else
      Decimal.defaultContext.add
        (Decimal.defaultContext.div (daysInYear (yearOfDay s).1 - (yearOfDay s).2)
          (daysInYear (yearOfDay s).1))
        (Decimal.defaultContext.div ((yearOfDay e).2 + 1) (daysInYear (yearOfDay e).1)) :=
  rfl

/-- **What the code computes** is what it counts, up to three roundings. -/
theorem yearFraction_near (hse : s ≤ e) :
    |yearFraction s e - endsFraction s e| ≤ endsFraction s e * (3 / (2 * 10 ^ 27)) := by
  have hends := (endsFraction_mem hse).1
  rw [yearFraction_eq]
  rw [endsFraction] at hends ⊢
  by_cases hyear : (yearOfDay s).1 = (yearOfDay e).1
  · rw [if_pos hyear] at hends
    rw [if_pos hyear, if_pos hyear]
    have hround := abs_default_round_sub_le hends
    rw [Decimal.Context.div]
    linarith
  · rw [if_neg hyear] at hends
    rw [if_neg hyear, if_neg hyear]
    have hfirst := part_mem (firstPart_mem s).1 (firstPart_mem s).2
    have hlast := part_mem (lastPart_mem e).1 (lastPart_mem e).2
    rw [Decimal.Context.div, Decimal.Context.div, Decimal.Context.add]
    set a := (daysInYear (yearOfDay s).1 - (yearOfDay s).2 : ℚ) / daysInYear (yearOfDay s).1
    set b := ((yearOfDay e).2 + 1 : ℚ) / daysInYear (yearOfDay e).1
    have ha := abs_le.mp (abs_default_round_sub_le hfirst.1)
    have hb := abs_le.mp (abs_default_round_sub_le hlast.1)
    have hsum := abs_le.mp (abs_default_round_sub_le
      (q := Decimal.defaultContext.round a + Decimal.defaultContext.round b)
      (by linarith [ha.1, hb.1, hfirst.1, hlast.1]))
    rw [abs_le]
    constructor <;> linarith [hsum.1, hsum.2, ha.1, ha.2, hb.1, hb.2, hfirst.1, hlast.1]

/-- The factor of a period that is annualized by its days. -/
theorem factor_near (hse : s ≤ e) :
    |Decimal.defaultContext.div 1 (yearFraction s e) - 1 / endsFraction s e| ≤
      1 / endsFraction s e / (3 * 10 ^ 26) := by
  obtain ⟨hlo, hhi⟩ := endsFraction_mem hse
  have hnear := abs_le.mp (yearFraction_near hse)
  set t := endsFraction s e
  set f := yearFraction s e
  have ht : 0 < t := by linarith
  have hf : 0 < f := by linarith [hnear.1]
  -- the reciprocal is off by the same part of it
  have hinv : |1 / f - 1 / t| ≤ 1 / f * (3 / (2 * 10 ^ 27)) := by
    have hdiff : 1 / f - 1 / t = 1 / f * ((t - f) / t) := by
      field_simp
    rw [hdiff, abs_mul, abs_of_pos (one_div_pos.mpr hf)]
    refine mul_le_mul_of_nonneg_left ?_ (one_div_pos.mpr hf).le
    rw [abs_div, abs_of_pos ht, div_le_iff₀ ht, abs_sub_comm]
    linarith [yearFraction_near hse]
  have hinv' := abs_le.mp hinv
  have hbound : 1 / 1000 ≤ 1 / f := by
    rw [div_le_div_iff₀ (by norm_num) hf]
    linarith [hnear.2]
  have hround := abs_le.mp (abs_default_round_sub_le hbound)
  rw [Decimal.Context.div, abs_le]
  constructor <;> linarith [hround.1, hround.2, hinv'.1, hinv'.2, one_div_pos.mpr ht]

end CalculationService

/-- The presentations that are annualized by the days of the period. -/
def PeriodPresentation.byDays : PeriodPresentation → Bool
  | .discretePeriod | .yearToDate | .quarterly | .semiAnnual => true
  | .unknown | .fullYear | .trailingTwelveMonths | .datePoint | .other => false

namespace CalculationService

/-- The factor of a presentation that is annualized by days. -/
theorem factor_of_byDays (hse : s ≤ e) {presentation : PeriodPresentation}
    (h : presentation.byDays = true) (inputSemantics : List (InputRole × InputSemantics)) :
    computeActIsdaAnnualizationFactor s e presentation inputSemantics =
      .ok (Decimal.defaultContext.div 1 (yearFraction s e)) := by
  have hpos : ¬ yearFraction s e ≤ 0 := by
    have hnear := abs_le.mp (yearFraction_near hse)
    have hlo := (endsFraction_mem hse).1
    rw [not_le]
    linarith [hnear.1]
  have hbranch : computeActIsdaAnnualizationFactor s e presentation inputSemantics =
      if e < s then .error (.value "ANNUALIZATION_POLICY_UNRESOLVED")
      else if yearFraction s e ≤ 0 then .error (.value "ANNUALIZATION_POLICY_UNRESOLVED")
      else .ok (Decimal.defaultContext.div 1 (yearFraction s e)) := by
    cases presentation with
    | discretePeriod | yearToDate | quarterly | semiAnnual => rfl
    | unknown | fullYear | trailingTwelveMonths | datePoint | other => cases h
  rw [hbranch, if_neg (Nat.not_lt.mpr hse), if_neg hpos]

/-- **ACT/ACT ISDA**: the factor is the reciprocal of the sum over the years, and the part of a year
is additive over adjacent spans. -/
def AnnualizedByDays (s e : ℕ) : Prop :=
  (∀ presentation inputSemantics, presentation.byDays = true →
    ∃ factor, computeActIsdaAnnualizationFactor s e presentation inputSemantics = .ok factor ∧
      ToWorkingPrecision factor (1 / actIsda s e)) ∧
  ∀ m, s ≤ m → m < e →
    ToWorkingPrecision (yearFraction s m + yearFraction (m + 1) e) (yearFraction s e)

/-- More than two years are not annualized right. -/
theorem not_annualizedByDays (h : (yearOfDay s).1 + 2 ≤ (yearOfDay e).1) :
    ¬ AnnualizedByDays s e := by
  have hse : s ≤ e := by
    by_contra hlt
    have hle := yearOfDay_fst_le (Nat.le_of_not_le hlt)
    omega
  rintro ⟨hfactor, -⟩
  obtain ⟨factor, hok, hnear⟩ := hfactor .discretePeriod [] rfl
  rw [factor_of_byDays hse rfl] at hok
  obtain rfl := Except.ok.inj hok
  obtain ⟨hlo, hhi⟩ := endsFraction_mem hse
  have hmore := endsFraction_add_one_le h
  have hcode := (abs_le.mp (factor_near hse)).1
  set t := endsFraction s e
  have ht : 0 < t := by linarith
  have hactual : 0 < actIsda s e := by linarith
  have hratio : 1 / actIsda s e ≤ 2 / 3 * (1 / t) := by
    rw [mul_one_div, div_div, div_le_div_iff₀ hactual (by positivity)]
    linarith
  rw [ToWorkingPrecision, abs_of_pos (one_div_pos.mpr hactual)] at hnear
  have hnear := (abs_le.mp hnear).2
  have hpos := one_div_pos.mpr ht
  linarith

/-- **The periods that are annualized right**: those of two adjacent years at most. Of a longer
period the years in between are left out. -/
theorem actIsda_iff (hse : s ≤ e) :
    AnnualizedByDays s e ↔ (yearOfDay e).1 ≤ (yearOfDay s).1 + 1 := by
  constructor
  · intro h
    by_contra hmany
    exact not_annualizedByDays (by omega) h
  · intro h
    have hexact := actIsda_eq_endsFraction hse h
    refine ⟨fun presentation inputSemantics hdays => ?_, fun m hsm hme => ?_⟩
    · refine ⟨_, factor_of_byDays hse hdays inputSemantics, ?_⟩
      have hnear := factor_near hse
      have hpos := one_div_pos.mpr (lt_of_lt_of_le (by norm_num) (endsFraction_mem hse).1)
      rw [ToWorkingPrecision, hexact, abs_of_pos hpos]
      linarith
    · have hme : m + 1 ≤ e := hme
      have hyears := yearOfDay_fst_le hsm
      have hyears' := yearOfDay_fst_le (Nat.le_add_right m 1)
      have hyears'' := yearOfDay_fst_le hme
      have hsum := actIsda_split (s := s) (m := m) (e := e) (by omega) (by omega)
      rw [hexact, actIsda_eq_endsFraction hsm (by omega),
        actIsda_eq_endsFraction hme (by omega)] at hsum
      have hfirst := abs_le.mp (yearFraction_near hsm)
      have hlast := abs_le.mp (yearFraction_near hme)
      have hwhole := abs_le.mp (yearFraction_near hse)
      have hlo := (endsFraction_mem hse).1
      rw [ToWorkingPrecision, abs_of_pos (a := yearFraction s e) (by linarith [hwhole.1]), abs_le]
      constructor <;> linarith [hfirst.1, hfirst.2, hlast.1, hlast.2, hwhole.1, hwhole.2]

/-- The second half of 2023 with the first half of 2024. -/
theorem actIsda_iff_halves : AnnualizedByDays 738701 739066 ∧ yearOfDay 738701 = (2023, 181) ∧
    yearOfDay 739066 = (2024, 181) :=
  ⟨(actIsda_iff (by decide)).mpr (by decide), by decide, by decide⟩

/-- From the second half of 2021 to the first half of 2023, the year in between is left out. -/
theorem not_annualizedByDays_twoYears : ¬ AnnualizedByDays 737971 738700 :=
  not_annualizedByDays (by decide)

end CalculationService

end FinanceIntelligence
