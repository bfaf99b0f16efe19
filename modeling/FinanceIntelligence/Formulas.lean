import FinanceIntelligence.DecimalArithmetic
import FinanceIntelligence.Datetime
import FinanceIntelligence.FactStore

/-!
# Formulas

The five ratios of `app.calculations`, the annualization of a period and the reconciliation with a
reported figure: the pure part of a calculation, on the facts that were selected for it.

Formulas work with 38 significant digits; the annualization and the reconciliation run outside of
their context, with the 28 digits of `getcontext()`.
-/

namespace FinanceIntelligence

/-- The exceptions of a calculation. -/
inductive CalcExc where
  /-- `ValueError`, with its text -/
  | value (code : String)
  | multipleResultsFound
  /-- an exception of `decimal` -/
  | decimal (s : Decimal.Signal)
  /-- `OverflowError` -/
  | overflow
  /-- `IntegrityError`: a key or a reference -/
  | integrity
  /-- another error of the database: a number too long for its column, or a trigger -/
  | database
  /-- an exception of a callee outside the model -/
  | outside
deriving DecidableEq

/-- What an input is to its formula. -/
inductive InputRole where
  | numerator
  | denominator
  | currentValue
  | comparisonValue
  | periodIncome
  | beginningBalance
  | endingBalance
deriving DecidableEq, Repr

/-- A figure of a period, or of a point in time. -/
inductive InputSemantics where
  | flow
  | stock
deriving DecidableEq, Repr

/-- `comparison_requirement`. -/
inductive ComparisonRequirement where
  | none
  | requiredComparison
  | requiredBeginningBalance
deriving DecidableEq, Repr

/-- An entry of `inputs_by_role`. -/
structure FormulaInput where
  id : Uuid
  candidateId : Uuid
  metricCode : String
  normalizedValue : ℚ
  currency : String
  unit : String
  scale : String
  reportingBasis : ReportingBasis
deriving DecidableEq

/-- The entry of a fact. -/
def FinancialFact.toInput (f : FinancialFact) : FormulaInput where
  id := f.id
  candidateId := f.sourceCandidateId
  metricCode := f.metricCode
  normalizedValue := f.normalizedValue
  currency := f.currency
  unit := f.unit
  scale := f.scale
  reportingBasis := f.reportingBasis

/-- `FormulaResult`. -/
structure FormulaResult where
  resultValueUnrounded : ℚ
  resultValueDisplay : ℚ
  resultUnit : String := "PERCENT"
  resultScale : String := "ONE"
  valueRepresentation : String := "PERCENT_DISPLAY"
  roundingPolicy : String := "ROUND_HALF_UP"
deriving DecidableEq

/-- `get_working_decimal_context`. -/
def workingContext : Decimal.Context := ⟨38, .halfUp, 999999⟩

/-- `to_working_fraction`. -/
def toWorkingFraction (value : ℚ) (unit : String) : Except CalcExc ℚ :=
  if unit = "PERCENT" then .ok (workingContext.div value 100)
  else if unit ∈ ["CURRENCY", "COUNT", "RATIO", "ONE"] then .ok value
  else .error (.value "UNIT_MISMATCH")

/-- The end of every formula: a fraction as a percentage, with two decimals for display. -/
def percentResult (pctUnrounded : ℚ) : Except CalcExc FormulaResult :=
  match workingContext.quantize 2 pctUnrounded with
  | .ok pctDisplay =>
    .ok { resultValueUnrounded := pctUnrounded, resultValueDisplay := pctDisplay }
  | .error s => .error (.decimal s)

/-! ## The formulas -/

/-- The registered formulas. -/
inductive Formula where
  | growthRate
  | loanToDepositRatio
  | nplRatio
  | returnOnAssets
  | returnOnEquity
deriving DecidableEq, Repr

namespace Formula

/-- `formula_code`. -/
def code : Formula → String
  | growthRate => "GROWTH_RATE"
  | loanToDepositRatio => "LOAN_TO_DEPOSIT_RATIO"
  | nplRatio => "NPL_RATIO"
  | returnOnAssets => "RETURN_ON_ASSETS"
  | returnOnEquity => "RETURN_ON_EQUITY"

/-- `_registry`. -/
def registry : List Formula :=
  [growthRate, loanToDepositRatio, nplRatio, returnOnAssets, returnOnEquity]

/-- `expected_metric_codes`. -/
def expectedMetricCodes : Formula → String × String
  | growthRate => ("METRIC_CURRENT", "METRIC_COMPARISON")
  | loanToDepositRatio => ("TOTAL_LOANS", "TOTAL_DEPOSITS")
  | nplRatio => ("NPL_LOANS", "TOTAL_LOANS")
  | returnOnAssets => ("NET_INCOME", "TOTAL_ASSETS")
  | returnOnEquity => ("NET_INCOME", "TOTAL_EQUITY")

/-- `comparison_requirement`. -/
def comparisonRequirement : Formula → ComparisonRequirement
  | growthRate => .requiredComparison
  | loanToDepositRatio | nplRatio => .none
  | returnOnAssets | returnOnEquity => .requiredBeginningBalance

/-- `input_role_semantics`. -/
def inputRoleSemantics : Formula → List (InputRole × InputSemantics)
  | growthRate => [(.currentValue, .stock), (.comparisonValue, .stock)]
  | loanToDepositRatio | nplRatio => [(.numerator, .stock), (.denominator, .stock)]
  | returnOnAssets | returnOnEquity =>
    [(.periodIncome, .flow), (.beginningBalance, .stock), (.endingBalance, .stock)]

/-- `FormulaRegistry.get_formula`, of the one version that there is. -/
def getFormula (formulaCode : String) : Except CalcExc Formula :=
  if formulaCode ∈ ["NET_INTEREST_MARGIN", "CAPITAL_ADEQUACY_RATIO"] then
    .error (.value "FORMULA_INPUT_METRIC_UNAVAILABLE")
  else
    match registry.find? fun f => f.code == formulaCode with
    | some f => .ok f
    | none => .error (.value "FORMULA_NOT_SUPPORTED")

/-- The code of a registered formula finds it. -/
@[simp] theorem getFormula_code (f : Formula) : getFormula f.code = .ok f := by
  cases f <;> decide

theorem code_of_getFormula {formulaCode : String} {f : Formula}
    (h : getFormula formulaCode = .ok f) : f.code = formulaCode := by
  rw [getFormula] at h
  split at h
  · cases h
  · split at h
    · rename_i g hg
      obtain rfl := Except.ok.inj h
      have hcode := List.find?_some hg
      exact beq_iff_eq.mp hcode
    · cases h

/-- What a formula of two figures checks before it divides them: unit, currency and scale. -/
def comparable (x y : FormulaInput) : Except CalcExc Unit :=
  if x.unit = "" ∨ y.unit = "" ∨ x.unit ≠ y.unit then .error (.value "UNIT_MISMATCH")
  else if x.currency ≠ y.currency then .error (.value "CURRENCY_MISMATCH")
  else if x.scale ≠ y.scale then .error (.value "SCALE_NORMALIZATION_ERROR")
  else .ok ()

/-- A figure in relation to another one, as a percentage less `offset`. -/
def quotient (offset : ℚ → ℚ) (x y : Option FormulaInput) : Except CalcExc FormulaResult :=
  match x, y with
  | some x, some y => do
    comparable x y
    let xFrac ← toWorkingFraction x.normalizedValue x.unit
    let yFrac ← toWorkingFraction y.normalizedValue y.unit
    if yFrac = 0 then .error (.value "DIVISION_BY_ZERO")
    else percentResult (workingContext.mul (offset (workingContext.div xFrac yFrac)) 100)
  | _, _ => .error (.value "INSUFFICIENT_INPUT_FACTS")

/-- `LoanToDepositRatioFormula.calculate`. -/
def loanToDeposit (inputs : InputRole → Option FormulaInput) : Except CalcExc FormulaResult :=
  quotient id (inputs .numerator) (inputs .denominator)

/-- `NplRatioFormula.calculate`. -/
def npl (inputs : InputRole → Option FormulaInput) : Except CalcExc FormulaResult :=
  quotient id (inputs .numerator) (inputs .denominator)

/-- `GrowthRateFormula.calculate`. -/
def growth (inputs : InputRole → Option FormulaInput) : Except CalcExc FormulaResult :=
  quotient (workingContext.sub · 1) (inputs .currentValue) (inputs .comparisonValue)

/-- A period's income in relation to the average of a balance, annualized. Unlike `comparable`,
this neither compares the income's unit with the balances' nor looks at the scales. -/
def returnOn (annualizationFactor : ℚ) (income beginning ending : Option FormulaInput) :
    Except CalcExc FormulaResult :=
  match income, beginning, ending with
  | some inc, some beg, some fin =>
    if beg.id = fin.id then .error (.value "DUPLICATE_BALANCE_INPUT")
    else if inc.unit = "" ∨ beg.unit = "" ∨ fin.unit = "" ∨ beg.unit ≠ fin.unit then
      .error (.value "UNIT_MISMATCH")
    else if beg.currency ≠ fin.currency ∨ inc.currency ≠ beg.currency then
      .error (.value "CURRENCY_MISMATCH")
    else do
      let incFrac ← toWorkingFraction inc.normalizedValue inc.unit
      let begFrac ← toWorkingFraction beg.normalizedValue beg.unit
      let finFrac ← toWorkingFraction fin.normalizedValue fin.unit
      let average := workingContext.div (workingContext.add begFrac finFrac) 2
      if average = 0 then .error (.value "DIVISION_BY_ZERO")
      else
        let fraction := workingContext.mul (workingContext.div incFrac average) annualizationFactor
        percentResult (workingContext.mul fraction 100)
  | _, _, _ => .error (.value "INSUFFICIENT_INPUT_FACTS")

/-- `ReturnOnAssetsFormula.calculate`. -/
def roa (inputs : InputRole → Option FormulaInput) (annualizationFactor : ℚ) :
    Except CalcExc FormulaResult :=
  returnOn annualizationFactor (inputs .periodIncome) (inputs .beginningBalance)
    (inputs .endingBalance)

/-- `ReturnOnEquityFormula.calculate`. -/
def roe (inputs : InputRole → Option FormulaInput) (annualizationFactor : ℚ) :
    Except CalcExc FormulaResult :=
  returnOn annualizationFactor (inputs .periodIncome) (inputs .beginningBalance)
    (inputs .endingBalance)

/-- `calculate` of the formula. -/
def calculate (f : Formula) (inputs : InputRole → Option FormulaInput)
    (annualizationFactor : ℚ) : Except CalcExc FormulaResult :=
  match f with
  | growthRate => growth inputs
  | loanToDepositRatio => loanToDeposit inputs
  | nplRatio => npl inputs
  | returnOnAssets => roa inputs annualizationFactor
  | returnOnEquity => roe inputs annualizationFactor

end Formula

/-! ## Periods -/

/-- `period_presentation`. -/
inductive PeriodPresentation where
  | unknown
  | fullYear
  | trailingTwelveMonths
  | datePoint
  | discretePeriod
  | yearToDate
  | quarterly
  | semiAnnual
  | other
deriving DecidableEq, Repr

/-- `reporting_periods`, with what a calculation reads. A date is the number of days since the
first day of the year 1. -/
structure PeriodRow where
  id : Uuid
  organizationId : Uuid
  periodType : String
  periodPresentation : PeriodPresentation
  fiscalYear : ℤ
  startDate : ℕ
  endDate : ℕ
  comparisonKey : String
deriving DecidableEq, Repr

namespace CalculationService

/-- The part of a year that a period covers, by ACT/ACT ISDA. -/
def yearFraction (startDate endDate : ℕ) : ℚ :=
  let c := Decimal.defaultContext
  let (startYear, daysBefore) := yearOfDay startDate
  let (endYear, daysInto) := yearOfDay endDate
  if startYear = endYear then c.div (endDate - startDate + 1) (daysInYear startYear)
  else
    let frac₁ := c.div (daysInYear startYear - daysBefore) (daysInYear startYear)
    let frac₂ := c.div (daysInto + 1) (daysInYear endYear)
    c.add frac₁ frac₂

/-- `compute_act_isda_annualization_factor`. -/
def computeActIsdaAnnualizationFactor (startDate endDate : ℕ) (presentation : PeriodPresentation)
    (inputSemantics : List (InputRole × InputSemantics)) : Except CalcExc ℚ :=
  let unresolved : Except CalcExc ℚ := .error (.value "ANNUALIZATION_POLICY_UNRESOLVED")
  match presentation with
  | .unknown | .other => unresolved
  | .fullYear | .trailingTwelveMonths => .ok 1
  | .datePoint => if inputSemantics.any (·.2 = .flow) then unresolved else .ok 1
  | .discretePeriod | .yearToDate | .quarterly | .semiAnnual =>
    if endDate < startDate then unresolved
    else
      let fraction := yearFraction startDate endDate
      if fraction ≤ 0 then unresolved else .ok (Decimal.defaultContext.div 1 fraction)

/-! ## Reconciliation -/

/-- `tolerance_kind`. -/
inductive ToleranceKind where
  | absolute
  | relative
  | other
deriving DecidableEq, Repr

/-- `reconciliation_status`. -/
inductive ReconciliationStatus where
  | reconciled
  | withinTolerance
  | outsideTolerance
deriving DecidableEq, Repr

/-- How far a derived value is from a reported one. -/
structure Differences where
  /-- `absolute_difference` -/
  absolute : ℚ
  /-- `relative_difference` -/
  relative : Option ℚ
  /-- `reconciliation_status` -/
  status : ReconciliationStatus
deriving DecidableEq

/-- The reconciliation of `run_calculation`. -/
def reconcile (kind : ToleranceKind) (tolerance derivedUnrounded source : ℚ) : Differences :=
  let c := Decimal.defaultContext
  let absDiff := c.abs (c.sub derivedUnrounded source)
  let relDiff :=
    if source = 0 then none else some (c.abs (c.div (c.sub derivedUnrounded source) source))
  let allowed :=
    if kind = .relative ∧ source ≠ 0 then c.abs (c.mul source (c.div tolerance 100)) else tolerance
  { absolute := absDiff
    relative := relDiff
    status :=
      if absDiff = 0 then .reconciled
      else if absDiff ≤ allowed then .withinTolerance
      else .outsideTolerance }

end CalculationService

end FinanceIntelligence
