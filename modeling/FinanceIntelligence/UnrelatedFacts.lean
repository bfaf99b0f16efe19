import FinanceIntelligence.CalculationAgain
import FinanceIntelligence.CalculationLookups
import FinanceIntelligence.Raising

/-!
# Facts that a calculation is not about

A bank reports a metric on two bases and in several currencies, and a period has facts of many
metrics. The lookups of a calculation tell only some of them apart: **a further fact that a lookup
finds makes the run fail**, the two facts of a growth rate may be of different metrics, and a
result is compared with a reported figure of whatever basis.

* `growthRate_iff` — **like for like** exactly if all facts of the two periods are of one metric;
* `ratioLookups_iff` — a ratio **runs** exactly if its lookups find no further fact.
-/

namespace FinanceIntelligence

open CalcProg CalculationService

variable {cfg : CalcConfig} {args : RunArgs} {f : Formula} {answer : ℕ → CalcAnswer}
  {σ' : Solo CalcStmt CalcDb} {o : RunOutcome} {d : CalcDb}

/-! ## The calculation that a run adds -/

/-- **A calculation that a run adds** is of the facts that it has selected. -/
theorem completes_of_new (hcode : Formula.getFormula args.formulaCode = .ok f)
    (h : (runCalculation cfg args).alone calcSchema answer { db := d } = (.ok o, σ'))
    (hnew : o.calculation ∉ d.calculations) :
    ∃ s e d₁ d₂, value (selectInputs args f) d = .ok s ∧ e.verified.formula = f ∧ e.selected = s ∧
      d₁.tables = d.tables ∧ Completes args e o d₁ d₂ := by
  obtain ⟨v, s, σ₁, hv, hs, hview, hexecute⟩ := runCalculation_eq_ok h
  obtain rfl := Except.ok.inj ((formula_of_value hv).symm.trans hcode)
  obtain ⟨new, d₁, hd, -, ⟨hexisting, -⟩ | ⟨-, request, hcompletes⟩⟩ := executeRun_eq_ok hexecute
  · have hmem : o.calculation ∈ d₁.executed args.organizationId
        (cfg.executionHash (executionPayload args v s)) := by
      simp [executed_of_existingOutcome hexisting]
    have hold := (List.mem_filter.mp hmem).1
    rw [hd, (view_insertRequests new _).1, hview] at hold
    exact absurd hold hnew
  · refine ⟨s, _, d₁, _, hs, rfl, rfl, ?_, hcompletes⟩
    rw [hd, tables_view, hview]
    rfl

/-! ## Like for like -/

/-- The figures of a growth rate are of one metric, on one basis, in one currency and unit, and of
the two periods. -/
structure LikeForLike (args : RunArgs) (comp : Option Uuid) (i j : CalculationInput) : Prop where
  /-- the current value -/
  current : i.inputRole = .currentValue
  /-- the value to compare with -/
  comparison : j.inputRole = .comparisonValue
  metricCode : i.metricCode = j.metricCode
  reportingBasis : i.reportingBasisSnapshot = j.reportingBasisSnapshot
  currency : i.currencySnapshot = j.currencySnapshot
  unit : i.unitSnapshot = j.unitSnapshot
  reportingPeriod : i.reportingPeriodIdSnapshot = args.reportingPeriodId
  comparisonPeriod : some j.reportingPeriodIdSnapshot = comp

/-- The facts that a growth rate may take from its two periods are of one metric. -/
def SameMetric (args : RunArgs) (d : CalcDb) : Prop :=
  ∀ x ∈ d.facts, eligible args (some args.reportingPeriodId) x = true →
    ∀ y ∈ d.facts, eligible args (comparisonPeriod args .growthRate d) y = true →
      x.metricCode = y.metricCode

/-- The fact is of a metric, on a basis, in a currency and a unit. -/
def ofSeries (metricCode : String) (basis : ReportingBasis) (currency unit : String)
    (x : FinancialFact) : Bool :=
  x.metricCode == metricCode && x.reportingBasis == basis && x.currency == currency &&
    x.unit == unit

/-- Figures that are divided have one unit. -/
theorem unit_of_quotient {offset : ℚ → ℚ} {x y : FormulaInput} {result : FormulaResult}
    (h : Formula.quotient offset (some x) (some y) = .ok result) : x.unit = y.unit := by
  simp only [Formula.quotient, exceptBind_eq_ok] at h
  obtain ⟨_, hcomparable, -⟩ := h
  rw [Formula.comparable] at hcomparable
  split at hcomparable
  · cases hcomparable
  · rename_i hunit
    simp only [not_or, not_not] at hunit
    exact hunit.2.2

/-- The figures of a growth rate have one unit. -/
theorem unit_of_growth {x y : FinancialFact} {factor : ℚ} {result : FormulaResult}
    (h : Formula.growthRate.calculate
      (FactObjects.input [(.currentValue, x), (.comparisonValue, y)]) factor = .ok result) :
    x.unit = y.unit := by
  have hcurrent : FactObjects.input [(.currentValue, x), (.comparisonValue, y)] .currentValue =
      some x.toInput := rfl
  have hcomparison : FactObjects.input [(.currentValue, x), (.comparisonValue, y)]
      .comparisonValue = some y.toInput := rfl
  rw [Formula.calculate, Formula.growth, hcurrent, hcomparison] at h
  exact unit_of_quotient h

/-- Facts that are consistent have one basis and one currency. -/
theorem consistent_head {x y : InputRole × FinancialFact} {l : FactObjects}
    (h : consistencyError (x :: l) = none) (hy : y ∈ x :: l) :
    y.2.reportingBasis = x.2.reportingBasis ∧ y.2.currency = x.2.currency := by
  have hall := List.findSome?_eq_none_iff.mp h y hy
  split at hall
  · cases hall
  · rename_i hbasis
    split at hall
    · cases hall
    · rename_i hcurrency
      exact ⟨not_not.mp hbasis, not_not.mp hcurrency⟩

/-- A fact that a lookup finds alone. -/
theorem mem_of_foundFacts (hids : UniqueFacts d) {q : FinancialFact → Bool} {x : FinancialFact}
    (h : foundFacts q d = [x]) :
    x ∈ d.facts ∧ q x = true ∧ ∀ y ∈ d.facts, q y = true → y = x := by
  rw [foundFacts_eq hids] at h
  have hx : x ∈ d.facts.filter q := by simp [h]
  refine ⟨(List.mem_filter.mp hx).1, (List.mem_filter.mp hx).2, fun y hy hq => ?_⟩
  have hmem : y ∈ d.facts.filter q := List.mem_filter.mpr ⟨hy, hq⟩
  rw [h] at hmem
  exact List.mem_singleton.mp hmem

theorem period_of_eligible {period : Option Uuid} {x : FinancialFact}
    (h : eligible args period x = true) : some x.reportingPeriodId = period := by
  simp only [eligible, Bool.and_eq_true, beq_iff_eq] at h
  exact h.1.1.1.2

/-- **Growth rates.** The figures of one that is made are like for like exactly if the facts of the
two periods are of one metric. Where there is one fact of a series in each period, so that a run
returns if there are no others, it returns exactly if there are no others. -/
theorem growthRate_iff (hids : UniqueFacts d)
    (hcode : Formula.getFormula args.formulaCode = .ok .growthRate) :
    (∀ o σ', (runCalculation cfg args).alone calcSchema answer { db := d } = (.ok o, σ') →
      o.calculation ∉ d.calculations →
      ∃ i j, o.inputs = [i, j] ∧
        (LikeForLike args (comparisonPeriod args .growthRate d) i j ↔ SameMetric args d)) ∧
    ∀ metricCode basis currency unit,
      Returns cfg args answer (d.keeping (ofSeries metricCode basis currency unit)) →
      (Returns cfg args answer d ↔
        NoFurther args .growthRate (ofSeries metricCode basis currency unit) d) := by
  constructor
  · intro o σ' h hnew
    obtain ⟨s, e, d₁, d₂, hs, hformula, rfl, htables, hcompletes⟩ := completes_of_new hcode h hnew
    obtain ⟨-, hfacts, hconsistent⟩ := selectInputs_value hs
    have honly := onlyFound_of_selectFacts hfacts
    obtain ⟨result, _, _, _, _, _, hresult, -⟩ := hcompletes.result
    have hinputs := hcompletes.inputs
    rw [hformula] at hresult
    -- one fact of each period
    generalize e.selected.facts = facts at honly hinputs hresult hconsistent
    obtain ⟨⟨r₁, x⟩, _, ⟨hr₁, hx⟩, hrest, rfl⟩ := List.forall₂_cons_right_iff.mp honly
    obtain ⟨⟨r₂, y⟩, _, ⟨hr₂, hy⟩, hnil, rfl⟩ := List.forall₂_cons_right_iff.mp hrest
    obtain rfl := List.forall₂_nil_right_iff.mp hnil
    obtain ⟨i, _, hi, hrest, hi'⟩ := List.forall₂_cons_right_iff.mp hinputs
    obtain ⟨j, _, hj, hnil, rfl⟩ := List.forall₂_cons_right_iff.mp hrest
    obtain rfl := List.forall₂_nil_right_iff.mp hnil
    obtain rfl : r₁ = .currentValue := hr₁
    obtain rfl : r₂ = .comparisonValue := hr₂
    obtain ⟨hxmem, hxq, hxonly⟩ := mem_of_foundFacts hids hx
    obtain ⟨hymem, hyq, hyonly⟩ := mem_of_foundFacts hids hy
    obtain ⟨hbasis, hcurrency⟩ := consistent_head hconsistent (.tail _ (.head _))
    refine ⟨i, j, hi', fun hlike => ?_, fun hsame => ?_⟩
    · intro x' hx' hxq' y' hy' hyq'
      rw [hxonly x' hx' hxq', hyonly y' hy' hyq', ← hi.metricCode, ← hj.metricCode]
      exact hlike.metricCode
    · exact {
        current := hi.inputRole
        comparison := hj.inputRole
        metricCode := by rw [hi.metricCode, hj.metricCode, hsame x hxmem hxq y hymem hyq]
        reportingBasis := by rw [hi.reportingBasis, hj.reportingBasis, hbasis]
        currency := by rw [hi.currency, hj.currency, hcurrency]
        unit := by
          rw [hi.unit, hj.unit]
          exact unit_of_growth hresult
        reportingPeriod := by
          rw [hi.reportingPeriodId]
          exact Option.some.inj (period_of_eligible hxq)
        comparisonPeriod := by
          rw [hj.reportingPeriodId]
          exact period_of_eligible hyq }
  · intro metricCode basis currency unit hreturns
    refine returns_iff_noFurther hids hcode (fun hnone => ?_) hreturns
    -- the figure to compare with is a fact of the reporting period too
    rw [reportedFigures, reportedFigures]
    change ((d.facts.filter _).filter _) = _
    rw [List.filter_filter]
    refine List.filter_congr fun x hx => ?_
    cases helig : eligible args (some args.reportingPeriodId) x with
    | false => simp
    | true => simp [hnone _ (.head _) x hx helig]

theorem returns_iff_isOk : Returns cfg args answer d ↔
    ((runCalculation cfg args).alone calcSchema answer { db := d }).1.isOk = true := by
  rw [Returns]
  match h : (runCalculation cfg args).alone calcSchema answer { db := d } with
  | (.ok o, σ') => exact iff_of_true ⟨o, σ', rfl⟩ rfl
  | (.error x, σ') =>
    refine iff_of_false ?_ nofun
    rintro ⟨o, σ'', hrun⟩
    cases hrun

/-- A run that returns what it should. -/
theorem exists_of_toOption {P : RunOutcome → Bool}
    (h : (((runCalculation cfg args).alone calcSchema answer { db := d }).1.toOption.map P) =
      some true) :
    ∃ o σ', (runCalculation cfg args).alone calcSchema answer { db := d } = (.ok o, σ') ∧
      P o = true := by
  obtain ⟨o, ho, hP⟩ := Option.map_eq_some_iff.mp h
  match hrun : (runCalculation cfg args).alone calcSchema answer { db := d } with
  | (.ok o', σ') =>
    rw [hrun] at ho
    obtain rfl : o' = o := Option.some.inj ho
    exact ⟨o', σ', rfl, hP⟩
  | (.error x, σ') =>
    rw [hrun] at ho
    cases ho

/-! ### Loans and deposits -/

/-- The tables of two years with these facts. -/
def twoYears (facts : List FinancialFact) : CalcDb :=
  (notRun { ratioTables with
    formulaDefinitions := ["GROWTH_RATE", "LOAN_TO_DEPOSIT_RATIO"].map fun code =>
      { formulaCode := code
        formulaSpecChecksum := some (ratioConfig.specChecksum .growthRate)
        implementationChecksum := ratioConfig.implementationChecksum .growthRate }
    periods :=
      [{ id := 3, organizationId := 1, periodType := "YEAR", periodPresentation := .fullYear
         fiscalYear := 2024, startDate := 738885, endDate := 739250, comparisonKey := "FY" },
       { id := 4, organizationId := 1, periodType := "YEAR", periodPresentation := .fullYear
         fiscalYear := 2023, startDate := 738520, endDate := 738884, comparisonKey := "FY" }]
    evidence := [csvLine 31 21, csvLine 32 22, csvLine 33 23] }).withFacts facts

/-- The growth of a year. -/
def yearGrowthArgs : RunArgs := { ratioArgs with formulaCode := "GROWTH_RATE" }

/-- Loans of this year and of the year before, and deposits of this year. -/
def loansAndDeposits : List FinancialFact :=
  [yearFigure 11 21 "TOTAL_LOANS" 300,
    { yearFigure 12 22 "TOTAL_LOANS" 200 with reportingPeriodId := 4, metricDefinitionId := 11 },
    yearFigure 13 23 "TOTAL_DEPOSITS" 150]

/-- The fact is of loans, in lira, of the bank alone. -/
def ofLoans : FinancialFact → Bool := ofSeries "TOTAL_LOANS" .solo "TRY" "CURRENCY"

/-- Loans of this year and deposits of the year before. -/
def loansAndOldDeposits : List FinancialFact :=
  [yearFigure 11 21 "TOTAL_LOANS" 300,
    { yearFigure 12 22 "TOTAL_DEPOSITS" 200 with reportingPeriodId := 4 }]

/-- The runs of the growth: with older deposits, with the loans only, with deposits too. -/
theorem growth_runs :
    ((runCalculation ratioConfig yearGrowthArgs).alone calcSchema freshAnswers
      { db := twoYears loansAndOldDeposits }).1.toOption.map (fun o => decide
        (o.inputs.map (·.metricCode) = ["TOTAL_LOANS", "TOTAL_DEPOSITS"] ∧
          o.calculation.resultValueDisplay = 50)) = some true ∧
    ((runCalculation ratioConfig yearGrowthArgs).alone calcSchema freshAnswers
      { db := (twoYears loansAndDeposits).keeping ofLoans }).1.isOk = true ∧
    ((runCalculation ratioConfig yearGrowthArgs).alone calcSchema freshAnswers
      { db := twoYears loansAndDeposits }).1.isOk = false := by
  decide +kernel

theorem run_loansAndOldDeposits :
    ∃ o σ', (runCalculation ratioConfig yearGrowthArgs).alone calcSchema freshAnswers
      { db := twoYears loansAndOldDeposits } = (.ok o, σ') ∧
      decide (o.inputs.map (·.metricCode) = ["TOTAL_LOANS", "TOTAL_DEPOSITS"] ∧
        o.calculation.resultValueDisplay = 50) = true :=
  exists_of_toOption growth_runs.1

theorem returns_ofLoans :
    Returns ratioConfig yearGrowthArgs freshAnswers ((twoYears loansAndDeposits).keeping ofLoans) :=
  returns_iff_isOk.mpr growth_runs.2.1

/-- Loans grow by a half relative to the deposits of the year before; and the loans of two years
have no growth rate when there are deposits too. -/
theorem growth_unlike :
    (∃ o σ', (runCalculation ratioConfig yearGrowthArgs).alone calcSchema freshAnswers
      { db := twoYears loansAndOldDeposits } = (.ok o, σ') ∧
      o.inputs.map (·.metricCode) = ["TOTAL_LOANS", "TOTAL_DEPOSITS"] ∧
      o.calculation.resultValueDisplay = 50) ∧
    Returns ratioConfig yearGrowthArgs freshAnswers ((twoYears loansAndDeposits).keeping ofLoans) ∧
    ¬ Returns ratioConfig yearGrowthArgs freshAnswers (twoYears loansAndDeposits) := by
  obtain ⟨o, σ', hrun, h⟩ := run_loansAndOldDeposits
  refine ⟨⟨o, σ', hrun, of_decide_eq_true h⟩, returns_ofLoans, fun h => ?_⟩
  rw [returns_iff_isOk, growth_runs.2.2] at h
  cases h

/-- Loans and older deposits are run, and the loans next to deposits are not. -/
theorem growthRate_iff_loans :
    (∃ o σ', (runCalculation ratioConfig yearGrowthArgs).alone calcSchema freshAnswers
      { db := twoYears loansAndOldDeposits } = (.ok o, σ') ∧
      ∃ i j, o.inputs = [i, j] ∧
        (LikeForLike yearGrowthArgs
            (comparisonPeriod yearGrowthArgs .growthRate (twoYears loansAndOldDeposits)) i j ↔
          SameMetric yearGrowthArgs (twoYears loansAndOldDeposits))) ∧
    (Returns ratioConfig yearGrowthArgs freshAnswers (twoYears loansAndDeposits) ↔
      NoFurther yearGrowthArgs .growthRate ofLoans (twoYears loansAndDeposits)) := by
  have hids : UniqueFacts (twoYears loansAndOldDeposits) := by
    rw [UniqueFacts]
    decide
  have hids' : UniqueFacts (twoYears loansAndDeposits) := by
    rw [UniqueFacts]
    decide
  obtain ⟨o, σ', hrun, -⟩ := run_loansAndOldDeposits
  refine ⟨⟨o, σ', hrun, ?_⟩, ?_⟩
  · exact (growthRate_iff hids (by decide)).1 o σ' hrun List.not_mem_nil
  · exact (growthRate_iff hids' (by decide)).2 _ _ _ _ returns_ofLoans

/-! ## One basis, one currency, one unit -/

/-- The fact is on the basis, in the currency and the unit, unless it is of neither metric. -/
def ofKind (f : Formula) (basis : ReportingBasis) (currency unit : String)
    (x : FinancialFact) : Bool :=
  !(x.metricCode == f.expectedMetricCodes.1 || x.metricCode == f.expectedMetricCodes.2) ||
    (x.reportingBasis == basis && x.currency == currency && x.unit == unit)

/-- The figure that a result was compared with has the basis of the inputs. -/
def ReconciledAlike (o : RunOutcome) (d : CalcDb) : Prop :=
  ∀ r ∈ o.reconciliation, ∀ x ∈ d.facts, x.id = r.sourceReportedFactId →
    ∀ i ∈ o.inputs, i.reportingBasisSnapshot = x.reportingBasis

/-- The lookups of a ratio are for its two metrics. -/
theorem metric_of_lookup (hf : f ≠ .growthRate) {comp : Option Uuid}
    {l : InputRole × (FinancialFact → Bool)} (hl : l ∈ lookups args f comp) {x : FinancialFact}
    (hx : l.2 x = true) : x.metricCode = f.expectedMetricCodes.1 ∨
      x.metricCode = f.expectedMetricCodes.2 := by
  cases f with
  | growthRate => exact absurd rfl hf
  | loanToDepositRatio | nplRatio =>
    simp only [lookups, List.mem_cons, List.not_mem_nil, or_false] at hl
    rcases hl with rfl | rfl
    · exact .inl (beq_iff_eq.mp (Bool.and_eq_true_iff.mp hx).2)
    · exact .inr (beq_iff_eq.mp (Bool.and_eq_true_iff.mp hx).2)
  | returnOnAssets | returnOnEquity =>
    simp only [lookups, List.mem_cons, List.not_mem_nil, or_false] at hl
    rcases hl with rfl | rfl | rfl
    · exact .inl (beq_iff_eq.mp (Bool.and_eq_true_iff.mp hx).2)
    · exact .inr (beq_iff_eq.mp (Bool.and_eq_true_iff.mp hx).2)
    · exact .inr (beq_iff_eq.mp (Bool.and_eq_true_iff.mp hx).2)

/-- A ratio has a lookup. -/
theorem exists_lookup (args : RunArgs) (f : Formula) (comp : Option Uuid) :
    ∃ l, l ∈ lookups args f comp := by
  cases f <;> exact ⟨_, List.mem_cons_self⟩

/-- A formula is none of its metrics. -/
theorem code_ne_metric (f : Formula) :
    f.code ≠ f.expectedMetricCodes.1 ∧ f.code ≠ f.expectedMetricCodes.2 := by
  cases f <;> decide

/-- **Ratios.** Where a run returns if the facts of its metrics are all on one basis, in one
currency and unit, it returns exactly if no lookup finds others. The figure that a new result is
compared with has the basis of its inputs exactly if those that are reported have. -/
theorem ratioLookups_iff (hids : UniqueFacts d)
    (hcode : Formula.getFormula args.formulaCode = .ok f) (hf : f ≠ .growthRate)
    {basis : ReportingBasis} {currency unit : String}
    (hreturns : Returns cfg args answer (d.keeping (ofKind f basis currency unit))) :
    (Returns cfg args answer d ↔ NoFurther args f (ofKind f basis currency unit) d) ∧
    ∀ o σ', (runCalculation cfg args).alone calcSchema answer { db := d } = (.ok o, σ') →
      o.calculation ∉ d.calculations →
      (ReconciledAlike o d ↔ ∀ x ∈ reportedFigures args d, x.reportingBasis = basis) := by
  have hiff : Returns cfg args answer d ↔ NoFurther args f (ofKind f basis currency unit) d := by
    refine returns_iff_noFurther hids hcode (fun _ => ?_) hreturns
    -- a reported figure is of neither metric, and is kept
    rw [reportedFigures, reportedFigures]
    change ((d.facts.filter _).filter _) = _
    rw [List.filter_filter]
    refine List.filter_congr fun x hx => ?_
    rw [← Formula.code_of_getFormula hcode]
    cases hmetric : x.metricCode == f.code with
    | false => simp
    | true =>
      have hne := code_ne_metric f
      rw [← beq_iff_eq.mp hmetric] at hne
      simp [ofKind, hne.1, hne.2]
  refine ⟨hiff, fun o σ' h hnew => ?_⟩
  have hnone := hiff.mp ⟨o, σ', h⟩
  obtain ⟨s, e, d₁, d₂, hs, hformula, rfl, htables, hcompletes⟩ := completes_of_new hcode h hnew
  obtain ⟨-, hfacts, -⟩ := selectInputs_value hs
  have honly := onlyFound_of_selectFacts hfacts
  -- every input is on the basis
  have hbasis : ∀ i ∈ o.inputs, i.reportingBasisSnapshot = basis := by
    intro i hi
    obtain ⟨x, hx, hix⟩ := exists_right_of_forall₂ hcompletes.inputs hi
    obtain ⟨l, hl, hxl⟩ := exists_right_of_forall₂ honly hx
    obtain ⟨hmem, hq, -⟩ := mem_of_foundFacts hids hxl.2
    have hkept := hnone l hl x.2 hmem hq
    rw [hix.reportingBasis]
    simp only [ofKind, Bool.or_eq_true, Bool.not_eq_true', Bool.or_eq_false_iff,
      beq_eq_false_iff_ne, Bool.and_eq_true, beq_iff_eq] at hkept
    rcases hkept with hneither | hkind
    · rcases metric_of_lookup hf hl hq with h₁ | h₂
      · exact absurd h₁ hneither.1
      · exact absurd h₂ hneither.2
    · exact hkind.1.1
  obtain ⟨l, hl⟩ := exists_lookup args f (comparisonPeriod args f d)
  obtain ⟨x, hx, -⟩ := exists_left_of_forall₂ honly hl
  obtain ⟨i, hi, -⟩ := exists_left_of_forall₂ hcompletes.inputs hx
  obtain ⟨result, calcId, attemptId, number, id, source, -, hsource, -, hrec⟩ := hcompletes.result
  rw [reportedFigures_tables htables] at hsource
  rcases hl : reportedFigures args d with _ | ⟨x, _ | ⟨y, rest⟩⟩
  · rw [hl] at hsource
    cases hsource
    simp [ReconciledAlike, hrec]
  · rw [hl] at hsource
    cases hsource
    have hx : x ∈ reportedFigures args d := by simp [hl]
    have hxmem := (List.mem_filter.mp hx).1
    rw [List.forall_mem_singleton]
    constructor
    · intro halike
      rw [← halike _ hrec x hxmem rfl i hi]
      exact hbasis i hi
    · intro hxbasis r hr x' hx' hid i' hi'
      obtain rfl : reconciliationOf args e.verified.definition calcId id result x = r :=
        Option.some.inj (hrec.symm.trans hr)
      rw [hbasis i' hi', List.inj_on_of_nodup_map hids hx' hxmem hid, hxbasis]
  · rw [hl] at hsource
    cases hsource

/-! ### Two bases -/

/-- Loans and deposits of the bank alone, and the loans of its group. -/
def loansOfTwoBases : List FinancialFact :=
  [yearFigure 11 21 "TOTAL_LOANS" 200, yearFigure 12 22 "TOTAL_DEPOSITS" 300,
    { yearFigure 13 23 "TOTAL_LOANS" 250 with
      reportingBasis := .consolidated, metricDefinitionId := 11 }]

/-- Loans and deposits of the bank alone, and the ratio that its group has reported. -/
def ratioOfGroup : List FinancialFact :=
  [yearFigure 11 21 "TOTAL_LOANS" 200, yearFigure 12 22 "TOTAL_DEPOSITS" 300,
    { yearFigure 13 23 "LOAN_TO_DEPOSIT_RATIO" 70 with
      reportingBasis := .consolidated, unit := "PERCENT" }]

/-- The ratio of the bank alone. -/
def ofBank : FinancialFact → Bool := ofKind .loanToDepositRatio .solo "TRY" "CURRENCY"

/-- The runs of the ratio: with the ratio of the group, with that of the bank alone, without the
loans of the group, and with them. -/
theorem ratio_runs :
    ((runCalculation ratioConfig ratioArgs).alone calcSchema freshAnswers
      { db := twoYears ratioOfGroup }).1.toOption.map (fun o => decide
        (o.inputs.map (·.reportingBasisSnapshot) = [.solo, .solo] ∧
          o.reconciliation.map (·.sourceReportedFactId) = some 13)) = some true ∧
    ((runCalculation ratioConfig ratioArgs).alone calcSchema freshAnswers
      { db := (twoYears ratioOfGroup).keeping ofBank }).1.isOk = true ∧
    ((runCalculation ratioConfig ratioArgs).alone calcSchema freshAnswers
      { db := (twoYears loansOfTwoBases).keeping ofBank }).1.isOk = true ∧
    ((runCalculation ratioConfig ratioArgs).alone calcSchema freshAnswers
      { db := twoYears loansOfTwoBases }).1.isOk = false := by
  decide +kernel

theorem run_ratioOfGroup :
    ∃ o σ', (runCalculation ratioConfig ratioArgs).alone calcSchema freshAnswers
      { db := twoYears ratioOfGroup } = (.ok o, σ') ∧
      decide (o.inputs.map (·.reportingBasisSnapshot) = [.solo, .solo] ∧
        o.reconciliation.map (·.sourceReportedFactId) = some 13) = true :=
  exists_of_toOption ratio_runs.1

theorem returns_ofBank :
    Returns ratioConfig ratioArgs freshAnswers ((twoYears loansOfTwoBases).keeping ofBank) :=
  returns_iff_isOk.mpr ratio_runs.2.2.1

/-- The loans of the group stand in the way of the ratio of the bank alone; and the ratio of the
bank is compared with that of the group. -/
theorem ratio_unlike :
    ((loansOfTwoBases.map (·.naturalKey)).Nodup ∧
      Returns ratioConfig ratioArgs freshAnswers ((twoYears loansOfTwoBases).keeping ofBank) ∧
      ¬ Returns ratioConfig ratioArgs freshAnswers (twoYears loansOfTwoBases)) ∧
    (ratioOfGroup.map (·.naturalKey)).Nodup ∧
    ∃ o σ', (runCalculation ratioConfig ratioArgs).alone calcSchema freshAnswers
      { db := twoYears ratioOfGroup } = (.ok o, σ') ∧
      o.inputs.map (·.reportingBasisSnapshot) = [.solo, .solo] ∧
      o.reconciliation.map (·.sourceReportedFactId) = some 13 ∧
      ((twoYears ratioOfGroup).tables.reviewed.fact 13).map (·.reportingBasis) =
        some .consolidated := by
  obtain ⟨o, σ', hrun, h⟩ := run_ratioOfGroup
  obtain ⟨hinputs, hreconciliation⟩ := of_decide_eq_true h
  refine ⟨⟨by decide, returns_ofBank, fun h => ?_⟩, by decide, o, σ', hrun, hinputs,
    hreconciliation, by decide⟩
  rw [returns_iff_isOk, ratio_runs.2.2.2] at h
  cases h

/-- The ratio of the bank alone, with the loans of the group, and with its ratio. -/
theorem ratioLookups_iff_bank :
    (Returns ratioConfig ratioArgs freshAnswers (twoYears loansOfTwoBases) ↔
      NoFurther ratioArgs .loanToDepositRatio ofBank (twoYears loansOfTwoBases)) ∧
    ∃ o σ', (runCalculation ratioConfig ratioArgs).alone calcSchema freshAnswers
      { db := twoYears ratioOfGroup } = (.ok o, σ') ∧
      (ReconciledAlike o (twoYears ratioOfGroup) ↔
        ∀ x ∈ reportedFigures ratioArgs (twoYears ratioOfGroup), x.reportingBasis = .solo) := by
  have hkept : Returns ratioConfig ratioArgs freshAnswers
      ((twoYears ratioOfGroup).keeping ofBank) :=
    returns_iff_isOk.mpr ratio_runs.2.1
  have hids : UniqueFacts (twoYears loansOfTwoBases) := by
    rw [UniqueFacts]
    decide
  have hids' : UniqueFacts (twoYears ratioOfGroup) := by
    rw [UniqueFacts]
    decide
  obtain ⟨o, σ', hrun, -⟩ := run_ratioOfGroup
  refine ⟨?_, o, σ', hrun, ?_⟩
  · exact (ratioLookups_iff hids (by decide) (by decide) returns_ofBank).1
  · exact (ratioLookups_iff hids' (by decide) (by decide) hkept).2 o σ' hrun List.not_mem_nil

end FinanceIntelligence
