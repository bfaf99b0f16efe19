import FinanceIntelligence.CalculationAlone
import FinanceIntelligence.CalculationRuns
import FinanceIntelligence.DocumentContext
import Mathlib.Tactic.NormNum

/-!
# The periods that filings are about

Periods come from `FactExtractionService.resolve_reporting_period` (fact_extraction_service.py),
which makes the quarter that ends on the date of a filing, and from `create_reporting_period`
(api/v1/facts.py). A calculation annualizes by the dates of its period, and looks for the period to
compare with by its key.

* `annualizedToDate_iff` — the factor of a filing's period is that of the year to date only in the
  first quarter.
* `previousYear_notFound` — the key contains the year, so that of the year before is another one.
-/

namespace FinanceIntelligence

/-- A row of `reporting_periods`. -/
structure StoredPeriod extends PeriodRow where
  quarter : Option ℕ
  month : Option ℕ
  label : List Char

/-- `ReportingPeriodCreateDTO`. -/
structure PeriodCreateDto where
  periodType : String
  fiscalYear : ℕ
  quarter : Option ℕ
  month : Option ℕ
  startDate : PyDate
  endDate : PyDate
  label : List Char
  /-- `ge=1900, le=2100` -/
  fiscalYear_mem : 1900 ≤ fiscalYear ∧ fiscalYear ≤ 2100
  /-- `ge=1, le=4` -/
  quarter_mem : ∀ q ∈ quarter, 1 ≤ q ∧ q ≤ 4
  /-- `ge=1, le=12` -/
  month_mem : ∀ m ∈ month, 1 ≤ m ∧ m ≤ 12
  /-- `max_length=100` -/
  label_length : label.length ≤ 100

/-! ## Keys -/

/-- `f"{fiscal_year}-Q{quarter}"`, or `f"{fiscal_year}-FY"`. -/
def keyText (fiscalYear : ℕ) : Option ℕ → List Char
  | some quarter => Nat.toDigits 10 fiscalYear ++ '-' :: 'Q' :: Nat.toDigits 10 quarter
  | none => Nat.toDigits 10 fiscalYear ++ ['-', 'F', 'Y']

/-- `NormalizationService.generate_comparison_key`. -/
def NormalizationService.generateComparisonKey (periodType : String) (fiscalYear : ℕ)
    (quarter : Option ℕ) : String :=
  String.ofList (keyText fiscalYear (if periodType = "QUARTER" then quarter.filter (· ≠ 0) else none))

/-- **A key tells its year.** -/
theorem keyText_year {y y' : ℕ} {q q' : Option ℕ} (h : keyText y q = keyText y' q') : y = y' := by
  have hsplit : ∀ y q, ∃ rest, keyText y q = Nat.toDigits 10 y ++ '-' :: rest := by
    intro y q
    cases q with
    | none => exact ⟨_, rfl⟩
    | some q => exact ⟨_, rfl⟩
  obtain ⟨rest, hrest⟩ := hsplit y q
  obtain ⟨rest', hrest'⟩ := hsplit y' q'
  rw [hrest, hrest'] at h
  have hminus : ∀ n, '-' ∉ Nat.toDigits 10 n := not_mem_toDigits_ten (by decide)
  exact toDigits_ten_injective (append_cons_inj (hminus y) (hminus y') h).1

/-- **A key tells its year and its quarter.** -/
theorem keyText_injective {y y' : ℕ} {q q' : Option ℕ} (h : keyText y q = keyText y' q') :
    y = y' ∧ q = q' := by
  obtain rfl := keyText_year h
  refine ⟨rfl, ?_⟩
  cases q with
  | none =>
    cases q' with
    | none => rfl
    | some q' => simp [keyText] at h
  | some q =>
    cases q' with
    | none => simp [keyText] at h
    | some q' =>
      simp only [keyText, List.append_cancel_left_eq, List.cons.injEq, true_and] at h
      rw [toDigits_ten_injective h]

/-! ## Creation -/

/-- The constraints of the table: the order of the dates, `period_type VARCHAR(50)`, one period for a
key, and ids of their own. -/
def admitsPeriod (periods : List StoredPeriod) (p : StoredPeriod) : Bool :=
  p.startDate ≤ p.endDate && p.periodType.length ≤ 50 && periods.all fun x => x.id != p.id &&
    !(x.organizationId == p.organizationId && x.periodType == p.periodType &&
      x.fiscalYear == p.fiscalYear && x.comparisonKey == p.comparisonKey)

/-- The first day of the quarter of a date. -/
def quarterStart (d : PyDate) : PyDate where
  year := d.year
  month := 3 * (d.quarter - 1) + 1
  day := 1
  year_mem := d.year_mem
  month_mem := by
    have := d.month_mem
    simp only [PyDate.quarter]
    omega
  day_mem := by
    refine ⟨le_rfl, ?_⟩
    obtain ⟨h₁, h₂⟩ := d.month_mem
    have hm : 3 * (d.quarter - 1) + 1 ∈ [1, 4, 7, 10] := by
      simp only [PyDate.quarter, List.mem_cons, List.not_mem_nil, or_false]
      omega
    generalize 3 * (d.quarter - 1) + 1 = m at hm
    have hlong : ∀ leap, ∀ m ∈ [1, 4, 7, 10], 1 ≤ daysInMonth leap m := by decide
    exact hlong _ m hm

namespace FactExtractionService

/-- `find_reporting_period`; more than one period with the key is an error. -/
def findReportingPeriod (periods : List StoredPeriod) (organizationId : Uuid) (periodEnd : PyDate) :
    Except CalcExc (Option StoredPeriod) :=
  let key := NormalizationService.generateComparisonKey "QUARTER" periodEnd.year
    (some periodEnd.quarter)
  match periods.filter fun p => p.organizationId == organizationId && p.comparisonKey == key with
  | [] => .ok none
  | [p] => .ok (some p)
  | _ => .error .multipleResultsFound

/-- The period that `resolve_reporting_period` adds. -/
def createdPeriod (organizationId id : Uuid) (periodEnd : PyDate) : StoredPeriod where
  id := id
  organizationId := organizationId
  periodType := "QUARTER"
  periodPresentation := .yearToDate
  fiscalYear := periodEnd.year
  startDate := (quarterStart periodEnd).ordinal
  endDate := periodEnd.ordinal
  comparisonKey := NormalizationService.generateComparisonKey "QUARTER" periodEnd.year
    (some periodEnd.quarter)
  quarter := some periodEnd.quarter
  month := none
  label := Nat.toDigits 10 periodEnd.year ++ '/' :: 'Q' :: Nat.toDigits 10 periodEnd.quarter

/-- `resolve_reporting_period`: the period, and the table afterwards. -/
def resolveReportingPeriod (periods : List StoredPeriod) (organizationId id : Uuid)
    (periodEnd : PyDate) : Except CalcExc (StoredPeriod × List StoredPeriod) :=
  match findReportingPeriod periods organizationId periodEnd with
  | .error x => .error x
  | .ok (some p) => .ok (p, periods)
  | .ok none =>
    let p := createdPeriod organizationId id periodEnd
    if admitsPeriod periods p then .ok (p, periods ++ [p]) else .error .integrity

end FactExtractionService

/-- `create_reporting_period`: the table afterwards; `none` for a refusal. -/
def createReportingPeriod (periods : List StoredPeriod) (organizationId id : Uuid)
    (dto : PeriodCreateDto) : Option (List StoredPeriod) :=
  if dto.endDate.ordinal < dto.startDate.ordinal then none
  else
    let p : StoredPeriod :=
      { id := id
        organizationId := organizationId
        periodType := dto.periodType
        -- the column's default
        periodPresentation := .unknown
        fiscalYear := dto.fiscalYear
        startDate := dto.startDate.ordinal
        endDate := dto.endDate.ordinal
        comparisonKey := String.ofList (keyText dto.fiscalYear (dto.quarter.filter (· ≠ 0)))
        quarter := dto.quarter
        month := dto.month
        label := dto.label }
    if admitsPeriod periods p then some (periods ++ [p]) else none

/-- The periods that filings and reviewers have made. -/
inductive ProvisionedPeriods : List StoredPeriod → Prop where
  /-- no period yet -/
  | empty : ProvisionedPeriods []
  /-- the period of a filing -/
  | resolve {periods periods' : List StoredPeriod} {p : StoredPeriod} {organizationId id : Uuid}
      {periodEnd : PyDate} : ProvisionedPeriods periods →
      FactExtractionService.resolveReportingPeriod periods organizationId id periodEnd =
        .ok (p, periods') → ProvisionedPeriods periods'
  /-- the period of a reviewer -/
  | create {periods periods' : List StoredPeriod} {organizationId id : Uuid}
      {dto : PeriodCreateDto} : ProvisionedPeriods periods →
      createReportingPeriod periods organizationId id dto = some periods' →
      ProvisionedPeriods periods'

/-- **The key of a period** is made of its year. -/
theorem ProvisionedPeriods.key {periods : List StoredPeriod} (h : ProvisionedPeriods periods)
    {p : StoredPeriod} (hp : p ∈ periods) :
    ∃ (y : ℕ) (q : Option ℕ), p.fiscalYear = y ∧ p.comparisonKey = String.ofList (keyText y q) := by
  induction h with
  | empty => cases hp
  | resolve _ hresolve ih =>
    rw [FactExtractionService.resolveReportingPeriod] at hresolve
    split at hresolve
    · cases hresolve
    · obtain ⟨-, rfl⟩ := Prod.mk.inj (Except.ok.inj hresolve)
      exact ih hp
    · simp only at hresolve
      split at hresolve
      · obtain ⟨-, rfl⟩ := Prod.mk.inj (Except.ok.inj hresolve)
        rcases List.mem_append.mp hp with hp | hp
        · exact ih hp
        · obtain rfl := List.mem_singleton.mp hp
          exact ⟨_, _, rfl, rfl⟩
      · cases hresolve
  | create _ hcreate ih =>
    rw [createReportingPeriod] at hcreate
    split at hcreate
    · cases hcreate
    · simp only at hcreate
      split at hcreate
      · obtain rfl := Option.some.inj hcreate
        rcases List.mem_append.mp hp with hp | hp
        · exact ih hp
        · obtain rfl := List.mem_singleton.mp hp
          exact ⟨_, _, rfl, rfl⟩
      · cases hcreate

/-! ## Annualization -/

/-- The last day of a quarter. -/
def IsQuarterEnd (d : PyDate) : Prop :=
  d.month % 3 = 0 ∧ d.day = daysInMonth (isLeap d.year) d.month

instance : DecidablePred IsQuarterEnd := fun d =>
  inferInstanceAs (Decidable (d.month % 3 = 0 ∧ d.day = daysInMonth (isLeap d.year) d.month))

/-- The factor of a period is that of the year up to a date, as far as 28 digits tell. -/
def AnnualizesToDate (f : Formula) (p : StoredPeriod) (d : PyDate) : Prop :=
  ∃ factor, CalculationService.computeActIsdaAnnualizationFactor p.startDate p.endDate
      p.periodPresentation f.inputRoleSemantics = .ok factor ∧
    |factor - (daysInYear d.year : ℚ) / d.dayOfYear| ≤ 1 / 10 ^ 26

/-- The quarters of a year: the part of the year from the first day of the quarter is positive, and
its inverse is the factor of the year to date in the first quarter only. -/
theorem quarter_factor : ∀ leap : Bool, ∀ m ∈ [3, 6, 9, 12],
    let days : ℚ := if leap then 366 else 365
    let toDate : ℚ := (daysBeforeMonth leap m + daysInMonth leap m : ℕ)
    let fraction := Decimal.defaultContext.div
      (toDate - (daysBeforeMonth leap (m - 2) + 1 : ℕ) + 1) days
    ¬ fraction ≤ 0 ∧
      (|Decimal.defaultContext.div 1 fraction - days / toDate| ≤ 1 / 10 ^ 26 ↔ m = 3) := by
  decide +kernel

/-- The part of the year that two days of the same year enclose. -/
theorem yearFraction_of_year {d e : PyDate} (hyear : d.year = e.year) :
    CalculationService.yearFraction d.ordinal e.ordinal =
      Decimal.defaultContext.div (e.dayOfYear - d.dayOfYear + 1) (daysInYear d.year) := by
  have hd := d.dayOfYear_mem.1
  have he := e.dayOfYear_mem.1
  simp only [CalculationService.yearFraction, PyDate.yearOfDay_ordinal, hyear, if_true]
  congr 1
  -- the days before the year drop out
  simp only [PyDate.ordinal, hyear]
  push_cast [Nat.cast_sub hd, Nat.cast_sub he]
  ring

theorem dayOfYear_quarterStart {d : PyDate} (hd : IsQuarterEnd d) :
    (quarterStart d).dayOfYear = daysBeforeMonth (isLeap d.year) (d.month - 2) + 1 := by
  have hm : 3 * (d.quarter - 1) + 1 = d.month - 2 := by
    have := hd.1
    have := d.month_mem
    simp only [PyDate.quarter]
    omega
  simp only [PyDate.dayOfYear, quarterStart, hm]

/-- The quarter of a filing is the year to date in the first quarter only. -/
theorem createdPeriod_annualizes_iff (f : Formula) (organizationId id : Uuid) {d : PyDate}
    (hd : IsQuarterEnd d) :
    AnnualizesToDate f (FactExtractionService.createdPeriod organizationId id d) d ↔
      d.quarter = 1 := by
  have hm : d.month ∈ [3, 6, 9, 12] := by
    have := hd.1
    have := d.month_mem
    simp only [List.mem_cons, List.not_mem_nil, or_false]
    omega
  have hquarter : d.quarter = 1 ↔ d.month = 3 := by
    have := hd.1
    have := d.month_mem
    simp only [PyDate.quarter]
    omega
  have hday : d.dayOfYear =
      daysBeforeMonth (isLeap d.year) d.month + daysInMonth (isLeap d.year) d.month := by
    rw [PyDate.dayOfYear, hd.2]
  have hyear : (daysInYear d.year : ℚ) = if isLeap d.year then 366 else 365 := by
    rw [daysInYear]
    split <;> rfl
  obtain ⟨hpos, hiff⟩ := quarter_factor (isLeap d.year) d.month hm
  rw [← hday, ← dayOfYear_quarterStart hd, ← hyear] at hpos hiff
  have hfraction : CalculationService.yearFraction (quarterStart d).ordinal d.ordinal =
      Decimal.defaultContext.div (d.dayOfYear - (quarterStart d).dayOfYear + 1)
        (daysInYear d.year) := yearFraction_of_year rfl
  have horder : ¬ d.ordinal < (quarterStart d).ordinal := by
    have hle : ∀ leap : Bool, ∀ m ∈ [3, 6, 9, 12], daysBeforeMonth leap (m - 2) + 1 ≤
        daysBeforeMonth leap m + daysInMonth leap m := by decide
    have hdays := hle (isLeap d.year) d.month hm
    rw [← hday, ← dayOfYear_quarterStart hd] at hdays
    have hstart : (quarterStart d).year = d.year := rfl
    simp only [PyDate.ordinal, hstart]
    omega
  rw [hquarter, ← hiff, AnnualizesToDate]
  simp only [FactExtractionService.createdPeriod,
    CalculationService.computeActIsdaAnnualizationFactor, if_neg horder, hfraction, if_neg hpos]
  constructor
  · rintro ⟨factor, hfactor, hclose⟩
    obtain rfl := Except.ok.inj hfactor
    exact hclose
  · exact fun hclose => ⟨_, rfl, hclose⟩

/-- **When a filing's period is annualized as the year to date**: in the first quarter, where it
is one. -/
theorem annualizedToDate_iff (f : Formula) {periods periods' : List StoredPeriod}
    {organizationId id : Uuid} {d : PyDate} {p : StoredPeriod} (hd : IsQuarterEnd d)
    (hnew : FactExtractionService.findReportingPeriod periods organizationId d = .ok none)
    (h : FactExtractionService.resolveReportingPeriod periods organizationId id d =
      .ok (p, periods')) :
    AnnualizesToDate f p d ↔ d.quarter = 1 := by
  simp only [FactExtractionService.resolveReportingPeriod, hnew] at h
  split at h
  · obtain ⟨rfl, -⟩ := Prod.mk.inj (Except.ok.inj h)
    exact createdPeriod_annualizes_iff f organizationId id hd
  · cases h

/-- The end of the first quarter of 2024. -/
def march2024 : PyDate := ⟨2024, 3, 31, by decide, by decide, by decide⟩

/-- The period of a filing of the first quarter. -/
theorem annualizedToDate_march : AnnualizesToDate .returnOnAssets
    (FactExtractionService.createdPeriod 1 2 march2024) march2024 :=
  (@annualizedToDate_iff .returnOnAssets [] _ 1 2 march2024 _ (by decide) rfl rfl).mpr (by decide)

theorem year_2026 : 1 ≤ 2026 ∧ 2026 ≤ 9999 := by decide

/-- The end of the second quarter of 2026. -/
def june2026 : PyDate := ⟨2026, 6, 30, year_2026, by decide, by decide⟩

/-- The factor of the second quarter is that of three months. -/
theorem annualizedToDate_june : ¬ ∀ (f : Formula) (periods periods' : List StoredPeriod)
    (organizationId id : Uuid) (d : PyDate) (p : StoredPeriod), IsQuarterEnd d →
      FactExtractionService.findReportingPeriod periods organizationId d = .ok none →
      FactExtractionService.resolveReportingPeriod periods organizationId id d =
        .ok (p, periods') → AnnualizesToDate f p d := by
  intro h
  obtain ⟨factor, hfactor, hclose⟩ := h .returnOnAssets [] _ 1 2 june2026 _ (by decide) rfl rfl
  have hvalue : CalculationService.computeActIsdaAnnualizationFactor
      (quarterStart june2026).ordinal june2026.ordinal .yearToDate
      Formula.returnOnAssets.inputRoleSemantics = .ok (Decimal.defaultContext.div 1
        (Decimal.defaultContext.div 91 365)) := by
    decide +kernel
  obtain rfl := Except.ok.inj (hfactor.symm.trans hvalue)
  exact absurd hclose (by decide +kernel)

/-! ## The same period of the previous year -/

section PreviousYear

open CalculationService

variable {cfg : CalcConfig} {periods : List StoredPeriod} {organizationId : Uuid} {d : CalcDb}
  {args : RunArgs} {f : Formula} {answer : ℕ → CalcAnswer} {rep : PeriodRow}

/-- The periods of an organization are among those that were made for filings or by reviewers. -/
def PeriodsFrom (periods : List StoredPeriod) (organizationId : Uuid) (d : CalcDb) : Prop :=
  ∀ p ∈ d.tables.periods, p.organizationId = organizationId → ∃ x ∈ periods, x.toPeriodRow = p

/-- The period of the year before that corresponds to a period. -/
def IsPreviousYear (p rep : StoredPeriod) : Prop :=
  p.organizationId = rep.organizationId ∧ p.periodType = rep.periodType ∧
    p.fiscalYear = rep.fiscalYear - 1 ∧ p.quarter = rep.quarter

/-- **No period has the key of another year**, so the query finds nothing. -/
theorem previousYearSamePeriod_eq_none (h : ProvisionedPeriods periods)
    (hd : PeriodsFrom periods organizationId d) (hrep : rep ∈ d.tables.periods)
    (horg : rep.organizationId = organizationId) :
    previousYearSamePeriod organizationId rep d = none := by
  refine List.find?_eq_none.mpr fun p hp hmatch => ?_
  simp only [Bool.and_eq_true, beq_iff_eq] at hmatch
  obtain ⟨⟨⟨hporg, -⟩, hyear⟩, hkey⟩ := hmatch
  obtain ⟨x, hx, rfl⟩ := hd p hp hporg
  obtain ⟨z, hz, rfl⟩ := hd rep hrep horg
  obtain ⟨y, q, hy, hkeyx⟩ := h.key hx
  obtain ⟨y', q', hy', hkeyz⟩ := h.key hz
  rw [hkeyx, hkeyz] at hkey
  have hsame : y = y' := keyText_year (String.ofList_injective hkey)
  rw [hy, hy'] at hyear
  omega

/-- The policy comes to nothing. -/
theorem resolveComparison_previousYear (h : ProvisionedPeriods periods)
    (hd : PeriodsFrom periods args.organizationId d)
    (hpolicy : args.comparisonPolicy = .previousYearSamePeriod)
    (hnone : args.comparisonPeriodId = none) (hrep : rep ∈ d.tables.periods)
    (horg : rep.organizationId = args.organizationId) (requirement : ComparisonRequirement)
    {σ : Solo CalcStmt CalcDb} (hσ : σ.view calcSchema = d) :
    ((resolveComparison args requirement rep).alone calcSchema answer σ).1 =
      .error (if (answer σ.asked).fails then .outside
        else .value "COMPARISON_PERIOD_NOT_FOUND") := by
  have hquery := previousYearSamePeriod_eq_none h hd hrep horg
  simp only [resolveComparison, hpolicy, hnone, Prog.alone_bind, CalcProg.alone_select, hσ, hquery]
  by_cases hfails : (answer σ.asked).fails = true
  · simp [hfails]
  · simp [hfails, found]

/-- The selection of a formula that takes a comparison period raises. -/
theorem raises_selectInputs (h : ProvisionedPeriods periods)
    (hd : PeriodsFrom periods args.organizationId d)
    (hpolicy : args.comparisonPolicy = .previousYearSamePeriod)
    (hnone : args.comparisonPeriodId = none) (hf : f.comparisonRequirement ≠ .none)
    {σ : Solo CalcStmt CalcDb} (hσ : σ.view calcSchema = d) :
    (selectInputs args f).Raises calcSchema answer σ := by
  refine Prog.Raises.bind_left (Prog.Raises.bind fun rep σ' hrep => ?_)
  obtain ⟨hrep, hview⟩ := CalcProg.alone_selectOne_eq_ok hrep
  cases rep with
  | none => exact ⟨_, rfl⟩
  | some rep =>
    have hmem : rep ∈ (σ.view calcSchema).tables.periods.filter fun p =>
        p.id == args.reportingPeriodId && p.organizationId == args.organizationId := by
      rw [hrep]
      exact List.mem_singleton.mpr rfl
    obtain ⟨hmem, hids⟩ := List.mem_filter.mp hmem
    rw [hσ] at hmem
    simp only [Bool.and_eq_true, beq_iff_eq] at hids
    have hraises (requirement : ComparisonRequirement) :
        (resolveComparison args requirement rep).Raises calcSchema answer σ' :=
      ⟨_, resolveComparison_previousYear h hd hpolicy hnone hmem hids.2 requirement
        (hview.trans hσ)⟩
    cases hreq : f.comparisonRequirement with
    | none => exact absurd hreq hf
    | requiredComparison =>
      dsimp only
      exact (hraises _).bind_left
    | requiredBeginningBalance =>
      dsimp only
      exact (hraises _).bind_left

/-- **The period of the year before is never found**: its key contains its own year, whatever
periods were made for filings and by reviewers. -/
theorem previousYear_notFound (h : ProvisionedPeriods periods)
    (hd : PeriodsFrom periods args.organizationId d)
    (hpolicy : args.comparisonPolicy = .previousYearSamePeriod)
    (hnone : args.comparisonPeriodId = none)
    (hf : Formula.getFormula args.formulaCode = .ok f) (hcomp : f.comparisonRequirement ≠ .none)
    (answer : ℕ → CalcAnswer) :
    (runCalculation cfg args).Raises calcSchema answer { db := d } ∧
    ∀ rep ∈ d.tables.periods, rep.organizationId = args.organizationId →
      ((resolveComparison args f.comparisonRequirement rep).alone calcSchema answer
        { db := d }).1 = .error (if (answer 0).fails then .outside
          else .value "COMPARISON_PERIOD_NOT_FOUND") := by
  refine ⟨?_, fun rep hrep horg =>
    resolveComparison_previousYear h hd hpolicy hnone hrep horg _ rfl⟩
  refine Prog.Raises.bind fun _ σ₁ h₁ => Prog.Raises.bind fun _ σ₂ h₂ =>
    Prog.Raises.bind fun v σ₃ h₃ => ?_
  have h₃ := Prog.alone_of_tryCatch (fun _ _ => raises_handle ..) h₃
  obtain rfl := Except.ok.inj (hf.symm.trans (formula_of_verifyFormula h₃))
  -- nothing has been written so far
  have hview : σ₃.view calcSchema = d :=
    ((reads_verifyFormula args).view h₃).trans
      ((reads_attempt.view h₂).trans (reads_attempt.view h₁))
  exact Prog.Raises.bind_left (Prog.Raises.tryCatch
    (raises_selectInputs h hd hpolicy hnone hcomp hview) fun _ _ => raises_handle ..)

/-- The ends of the first quarters of 2025 and 2026. -/
def firstQuarterEnds : PyDate × PyDate :=
  (⟨2025, 3, 31, by decide, by decide, by decide⟩, ⟨2026, 3, 31, by decide, by decide, by decide⟩)

/-- Their periods. -/
def firstQuarters : List StoredPeriod :=
  [FactExtractionService.createdPeriod 1 3 firstQuarterEnds.1,
    FactExtractionService.createdPeriod 1 4 firstQuarterEnds.2]

theorem firstQuarters_provisioned : ProvisionedPeriods firstQuarters := by
  have h₁ : FactExtractionService.resolveReportingPeriod [] 1 3 firstQuarterEnds.1 =
      .ok (firstQuarters[0], [firstQuarters[0]]) := rfl
  have h₂ : FactExtractionService.resolveReportingPeriod [firstQuarters[0]] 1 4
      firstQuarterEnds.2 = .ok (firstQuarters[1], firstQuarters) := by
    have hadmits : admitsPeriod [firstQuarters[0]] firstQuarters[1] = true := by decide +kernel
    have hfind : FactExtractionService.findReportingPeriod [firstQuarters[0]] 1
        firstQuarterEnds.2 = .ok none := by
      rw [FactExtractionService.findReportingPeriod, List.filter_cons_of_neg (by decide +kernel)]
      rfl
    simp only [FactExtractionService.resolveReportingPeriod, hfind]
    exact if_pos hadmits
  exact .resolve (.resolve .empty h₁) h₂

/-- Tables with the two periods. -/
def firstQuarterTables : CalcDb :=
  notRun { ratioTables with periods := firstQuarters.map (·.toPeriodRow) }

theorem firstQuarterTables_periods : PeriodsFrom firstQuarters 1 firstQuarterTables :=
  fun _ hp _ => List.mem_map.mp hp

/-- The growth of the first quarter of 2026 over that of 2025. -/
def growthArgs : RunArgs where
  organizationId := 1
  requestedByUserId := 9
  formulaCode := "GROWTH_RATE"
  institutionId := 2
  reportingPeriodId := 4
  comparisonPolicy := .previousYearSamePeriod

/-- The first quarter of 2025 is not found for that of 2026. -/
theorem previousYear_notFound_firstQuarters :
    (runCalculation ratioConfig growthArgs).Raises calcSchema (fun _ => {})
      { db := firstQuarterTables } ∧
    ∀ rep ∈ firstQuarterTables.tables.periods, rep.organizationId = 1 →
      ((resolveComparison growthArgs .requiredComparison rep).alone calcSchema (fun _ => {})
        { db := firstQuarterTables }).1 = .error (.value "COMPARISON_PERIOD_NOT_FOUND") :=
  previousYear_notFound (f := .growthRate) firstQuarters_provisioned firstQuarterTables_periods
    rfl rfl (by decide) (by decide) _

/-- A period of the year before is there and is not found. -/
theorem previousYear_missed : ¬ ∀ (periods : List StoredPeriod) (d : CalcDb) (args : RunArgs)
    (f : Formula) (p rep : StoredPeriod), ProvisionedPeriods periods →
    PeriodsFrom periods args.organizationId d → p ∈ periods → rep ∈ periods →
    p.toPeriodRow ∈ d.tables.periods → rep.toPeriodRow ∈ d.tables.periods →
    rep.organizationId = args.organizationId → IsPreviousYear p rep →
    args.comparisonPolicy = .previousYearSamePeriod → args.comparisonPeriodId = none →
    f.comparisonRequirement ≠ .none →
    ((resolveComparison args f.comparisonRequirement rep.toPeriodRow).alone calcSchema
      (fun _ => {}) { db := d }).1 = .ok p.toPeriodRow := by
  intro h
  have hfound := h firstQuarters firstQuarterTables growthArgs .growthRate firstQuarters[0]
    firstQuarters[1] firstQuarters_provisioned firstQuarterTables_periods (.head _)
    (.tail _ (.head _)) (.head _) (.tail _ (.head _)) rfl ⟨rfl, rfl, rfl, rfl⟩ rfl rfl (by decide)
  rw [resolveComparison_previousYear firstQuarters_provisioned firstQuarterTables_periods rfl rfl
    (.tail _ (.head _)) rfl _ rfl] at hfound
  cases hfound

end PreviousYear

end FinanceIntelligence
