import FinanceIntelligence.CalculationRuns
import FinanceIntelligence.ComparisonQuality
import FinanceIntelligence.DecimalRounding

/-!
# The completeness of a comparison

A measure that a request asks for is there for every institution and period, if nothing may be
missing or if nothing is said to be missing. The cells are counted over the targets that the policy
makes of the measures, so a measure without a target is not missed.

* `completeness_eq_hundred_iff` — **the percentage** is a hundred if every target has its cell.
* `ComputedFrom.coversRequest_iff` — **what is covered**: the measures with a target.
* `completeCovers_iff` — **complete means covered** if every measure has a target.
-/

namespace FinanceIntelligence

/-! ## Kept rows -/

/-- There is a last row of those that are looked for if there is one. -/
theorem isSome_getLast_filter {α : Type} {p : α → Bool} {l : List α} :
    (l.filter p).getLast?.isSome ↔ ∃ a ∈ l, p a := by
  rw [List.getLast?_isSome]
  simp

/-- What is kept comes from a row that is looked at. -/
theorem mem_keepRows {α β : Type} {f : α → Except ComparisonExc (Option β)} {l : List α}
    {kept : List β} (h : keepRows f l = .ok kept) {b : β} :
    b ∈ kept ↔ ∃ a ∈ l, f a = .ok (some b) := by
  induction l generalizing kept with
  | nil =>
    obtain rfl := Except.ok.inj h
    simp
  | cons a l ih =>
    obtain ⟨x, hx, h⟩ := exceptBind_eq_ok.mp h
    obtain ⟨rest, hrest, h⟩ := exceptBind_eq_ok.mp h
    obtain rfl := Except.ok.inj h
    rw [List.mem_append, ih hrest]
    simp [hx]

namespace ComparisonService

/-! ## The percentage -/

/-- **All cells are there** exactly if the percentage is a hundred. -/
theorem completeness_eq_hundred_iff {populated expected : ℕ} {text : String}
    (hle : populated ≤ expected) (hexpected : expected ≤ 6000)
    (h : completeness populated expected = .ok text) :
    text = "100.00" ↔ populated = expected ∧ 0 < expected := by
  rw [completeness] at h
  split at h
  swap
  · obtain rfl := Except.ok.inj h
    constructor
    · intro h; exact absurd h (by decide)
    · rintro ⟨-, hpos⟩
      contradiction
  rename_i hpos
  obtain rfl | hlt := hle.eq_or_lt
  · have hone : ((populated : ℕ) : ℚ) / populated = 1 := div_self (by exact_mod_cast hpos.ne')
    have hvalue : Decimal.defaultContext.quantize 2 (Decimal.defaultContext.mul
        (Decimal.defaultContext.round 1) 100) = .ok 100 := by decide +kernel
    rw [Decimal.Context.div, hone, hvalue] at h
    obtain rfl := Except.ok.inj h
    exact iff_of_true (by decide +kernel) ⟨rfl, hpos⟩
  · refine iff_of_false ?_ fun h => hlt.ne h.1
    rintro rfl
    -- the quotient and the product are off by little, and a place is missing at least
    set c := Decimal.defaultContext with hc
    have hpos' : (0 : ℚ) < expected := by exact_mod_cast hpos
    have hquotient : (populated : ℚ) / expected ≤ 1 - 1 / 6000 := by
      have hsucc : (populated : ℚ) + 1 ≤ expected := by exact_mod_cast hlt
      have hbound : (expected : ℚ) ≤ 6000 := by exact_mod_cast hexpected
      rw [div_le_iff₀ hpos']
      linarith
    have hnonneg : 0 ≤ (populated : ℚ) / expected := by positivity
    have hdiv := abs_le.mp (c.abs_round_sub_le_of_lt (q := (populated : ℚ) / expected) (k := 0)
      (by decide) (by rw [abs_of_nonneg hnonneg, zpow_zero]; linarith))
    have htiny : (10 : ℚ) ^ (0 - (c.prec : ℤ)) / 2 ≤ 1 / 10 ^ 6 := by
      simp only [hc, Decimal.defaultContext]
      norm_num
    have hmul := abs_le.mp (c.abs_round_sub_le_of_lt (q := c.div populated expected * 100) (k := 3)
      (by decide) (by
        rw [Decimal.Context.div, abs_lt]
        constructor <;> linarith))
    have hsmall : (10 : ℚ) ^ (3 - (c.prec : ℤ)) / 2 ≤ 1 / 10 ^ 6 := by
      simp only [hc, Decimal.defaultContext]
      norm_num
    have hn := abs_le.mp
      (c.rounding.abs_toInt_sub_le (c.mul (c.div populated expected) 100 * 10 ^ 2))
    simp only [Decimal.Context.quantize] at h
    generalize c.rounding.toInt (c.mul (c.div populated expected) 100 * 10 ^ 2) = n at h hn
    change _ ≤ c.div populated expected - _ ∧ c.div populated expected - _ ≤ _ at hdiv
    change _ ≤ c.mul (c.div populated expected) 100 - _ ∧
      c.mul (c.div populated expected) 100 - _ ≤ _ at hmul
    have hupper : (n : ℚ) < 10000 := by linarith [hn.2, hmul.2, hdiv.2]
    have hlower : (-1 : ℚ) < n := by linarith [hn.1, hmul.1, hdiv.1]
    have hrange : 0 ≤ n ∧ n < 10000 :=
      ⟨by have : (-1 : ℤ) < n := by exact_mod_cast hlower
          omega, by exact_mod_cast hupper⟩
    lift n to ℕ using hrange.1
    have hlength := Decimal.length_str_two_lt (n := n) (by omega)
    split at h
    · rename_i percentage hpercentage
      split at hpercentage
      · obtain rfl := Except.ok.inj hpercentage
        have htext := congrArg String.length (Except.ok.inj h)
        rw [Int.cast_natCast] at htext
        rw [htext] at hlength
        exact absurd hlength (by decide)
      · cases hpercentage
    · cases h

/-! ## Figures -/

section Figures

variable (cfg : ComparisonConfig) (d : ComparisonDb) (organizationId : Uuid)
  (payload : ComparisonRequestDTO Uuid) (inst period : Uuid)

/-- There is a reported figure that can be shown. -/
def ReportedAt (metric : String) : Prop :=
  ∃ f ∈ factRows d organizationId payload [metric],
    f.institutionId = inst ∧ f.reportingPeriodId = period ∧
      ∃ x, usableFact cfg d organizationId payload f = .ok (some x)

/-- There is a derived figure that can be shown. -/
def DerivedAt (formula : String) : Prop :=
  ∃ row ∈ calculationRows d organizationId payload [formula],
    row.1.institutionId = inst ∧ row.1.reportingPeriodId = period ∧
      ∃ x, usableCalculation cfg d organizationId row = .ok (some x)

/-- There is a reported figure for a measure. -/
def MeasureReported (defn : SemanticMeasureDefinition) : Prop :=
  ∃ metric ∈ defn.reportedMetricCode, ReportedAt cfg d organizationId payload inst period metric

/-- There is a derived figure for a measure. -/
def MeasureDerived (defn : SemanticMeasureDefinition) : Prop :=
  ∃ formula ∈ defn.derivedFormulaCode, DerivedAt cfg d organizationId payload inst period formula

/-- There is a figure for a target. -/
def FigureAt (t : TargetMeasure) : Prop :=
  let reported := MeasureReported cfg d organizationId payload inst period t.definition
  let derived := MeasureDerived cfg d organizationId payload inst period t.definition
  match policyOf payload with
  | .sourceReportedOnly => reported
  | .systemDerivedOnly => derived
  | .preferSourceReported | .preferSystemDerived => reported ∨ derived
  | .bothSeparateSeries => if t.defaultOrigin = .sourceReported then reported else derived

variable {cfg d organizationId payload inst period}

theorem usableFact_eq_some {f : FinancialFact} {x : MatchedFact}
    (h : usableFact cfg d organizationId payload f = .ok (some x)) : x.1 = f := by
  simp only [usableFact] at h
  repeat' split at h
  all_goals cases h
  rfl

theorem usableCalculation_eq_some {row : Calculation × CalculationAttempt} {x : MatchedCalc}
    (h : usableCalculation cfg d organizationId row = .ok (some x)) : x.1 = row.1 := by
  simp only [usableCalculation] at h
  repeat' split at h
  all_goals cases h
  all_goals rfl

variable {order : RowOrder} {defs : List SemanticMeasureDefinition} {found : MatchedRows}

/-- The facts that are found. -/
theorem mem_found_facts (h : matchRows cfg d organizationId payload order defs = .ok found)
    {x : MatchedFact} : x ∈ found.facts ↔
      ∃ f ∈ factRows d organizationId payload (neededReportedMetrics (policyOf payload) defs),
        usableFact cfg d organizationId payload f = .ok (some x) := by
  obtain ⟨facts, hfacts, h⟩ := exceptBind_eq_ok.mp h
  obtain ⟨calculations, -, h⟩ := exceptBind_eq_ok.mp h
  obtain rfl := Except.ok.inj h
  rw [mem_keepRows hfacts]
  exact exists_congr fun f => and_congr_left' (order.facts_perm _).mem_iff

/-- The calculations that are found. -/
theorem mem_found_calculations (h : matchRows cfg d organizationId payload order defs = .ok found)
    {x : MatchedCalc} : x ∈ found.calculations ↔
      ∃ row ∈ calculationRows d organizationId payload
          (neededDerivedFormulas (policyOf payload) defs),
        usableCalculation cfg d organizationId row = .ok (some x) := by
  obtain ⟨facts, -, h⟩ := exceptBind_eq_ok.mp h
  obtain ⟨calculations, hcalculations, h⟩ := exceptBind_eq_ok.mp h
  obtain rfl := Except.ok.inj h
  rw [mem_keepRows hcalculations]
  exact exists_congr fun row => and_congr_left' (order.calculations_perm _).mem_iff

/-- The metric of a fact is one that is looked for. -/
theorem metricCode_mem {metrics : List String} {f : FinancialFact}
    (hf : f ∈ factRows d organizationId payload metrics) : f.metricCode ∈ metrics := by
  simp only [factRows, List.mem_filter, Bool.and_eq_true] at hf
  simpa using hf.2.1.1.1.1.2

/-- The formula of a calculation is one that is looked for. -/
theorem formulaCode_mem {formulas : List String} {row : Calculation × CalculationAttempt}
    (hrow : row ∈ calculationRows d organizationId payload formulas) :
    row.1.formulaCode ∈ formulas := by
  simp only [calculationRows, List.mem_flatMap, List.mem_map, List.mem_filter,
    Bool.and_eq_true] at hrow
  obtain ⟨c, -, a, ⟨-, h⟩, rfl⟩ := hrow
  simpa using h.2

/-- A fact that is looked for by its metric. -/
theorem mem_factRows_iff {metrics : List String} {f : FinancialFact}
    (hmetric : f.metricCode ∈ metrics) :
    f ∈ factRows d organizationId payload metrics ↔
      f ∈ factRows d organizationId payload [f.metricCode] := by
  simp [factRows, hmetric]

/-- A calculation that is looked for by its formula. -/
theorem mem_calculationRows_iff {formulas : List String} {row : Calculation × CalculationAttempt}
    (hformula : row.1.formulaCode ∈ formulas) :
    row ∈ calculationRows d organizationId payload formulas ↔
      row ∈ calculationRows d organizationId payload [row.1.formulaCode] := by
  obtain ⟨c, a⟩ := row
  simp only [calculationRows, List.mem_flatMap, List.mem_map, List.mem_filter, Prod.mk.injEq]
  refine exists_congr fun c' => and_congr_right fun _ => exists_congr fun a' => ?_
  constructor
  · rintro ⟨⟨ha, h⟩, rfl, rfl⟩
    exact ⟨⟨ha, by simpa [hformula] using h⟩, rfl, rfl⟩
  · rintro ⟨⟨ha, h⟩, rfl, rfl⟩
    exact ⟨⟨ha, by simpa [hformula] using h⟩, rfl, rfl⟩

/-- **A reported figure is found** if there is one. -/
theorem isSome_fact_iff (h : matchRows cfg d organizationId payload order defs = .ok found)
    {metric : String} (hmetric : metric ∈ neededReportedMetrics (policyOf payload) defs) :
    (found.fact inst period (some metric)).isSome ↔
      ReportedAt cfg d organizationId payload inst period metric := by
  rw [MatchedRows.fact, Option.bind_some, isSome_getLast_filter]
  simp only [Bool.and_eq_true, beq_iff_eq]
  constructor
  · rintro ⟨x, hx, ⟨hinst, hperiod⟩, rfl⟩
    obtain ⟨f, hf, hx⟩ := (mem_found_facts h).mp hx
    obtain rfl := usableFact_eq_some hx
    exact ⟨x.1, (mem_factRows_iff hmetric).mp hf, hinst, hperiod, x, hx⟩
  · rintro ⟨f, hf, hinst, hperiod, x, hx⟩
    obtain rfl := List.mem_singleton.mp (metricCode_mem hf)
    obtain rfl := usableFact_eq_some hx
    exact ⟨x, (mem_found_facts h).mpr ⟨x.1, (mem_factRows_iff hmetric).mpr hf, hx⟩,
      ⟨hinst, hperiod⟩, rfl⟩

/-- **A derived figure is found** if there is one. -/
theorem isSome_calculation_iff (h : matchRows cfg d organizationId payload order defs = .ok found)
    {formula : String} (hformula : formula ∈ neededDerivedFormulas (policyOf payload) defs) :
    (found.calculation inst period (some formula)).isSome ↔
      DerivedAt cfg d organizationId payload inst period formula := by
  rw [MatchedRows.calculation, Option.bind_some, isSome_getLast_filter]
  simp only [Bool.and_eq_true, beq_iff_eq]
  constructor
  · rintro ⟨x, hx, ⟨hinst, hperiod⟩, rfl⟩
    obtain ⟨row, hrow, hx⟩ := (mem_found_calculations h).mp hx
    have hcalc := usableCalculation_eq_some hx
    rw [hcalc] at hinst hperiod hformula ⊢
    exact ⟨row, (mem_calculationRows_iff hformula).mp hrow, hinst, hperiod, x, hx⟩
  · rintro ⟨row, hrow, hinst, hperiod, x, hx⟩
    obtain rfl := List.mem_singleton.mp (formulaCode_mem hrow)
    have hcalc := usableCalculation_eq_some hx
    refine ⟨x, (mem_found_calculations h).mpr ⟨row, (mem_calculationRows_iff hformula).mpr hrow,
      hx⟩, ?_, ?_⟩
    · rw [hcalc]
      exact ⟨hinst, hperiod⟩
    · rw [hcalc]

variable (inst period) in
/-- A measure's reported figure is found if there is one. -/
theorem isSome_fact_measure_iff
    (h : matchRows cfg d organizationId payload order defs = .ok found)
    (huses : (policyOf payload).usesReported) {defn : SemanticMeasureDefinition}
    (hdefn : defn ∈ defs) :
    (found.fact inst period defn.reportedMetricCode).isSome ↔
      MeasureReported cfg d organizationId payload inst period defn := by
  rw [MeasureReported]
  cases hmetric : defn.reportedMetricCode with
  | none => simp [MatchedRows.fact]
  | some metric =>
    rw [isSome_fact_iff h ?_]
    · simp
    · rw [neededReportedMetrics, if_pos huses]
      exact List.mem_filterMap.mpr ⟨defn, hdefn, hmetric⟩

variable (inst period) in
/-- A measure's derived figure is found if there is one. -/
theorem isSome_calculation_measure_iff
    (h : matchRows cfg d organizationId payload order defs = .ok found)
    (huses : (policyOf payload).usesDerived) {defn : SemanticMeasureDefinition}
    (hdefn : defn ∈ defs) :
    (found.calculation inst period defn.derivedFormulaCode).isSome ↔
      MeasureDerived cfg d organizationId payload inst period defn := by
  rw [MeasureDerived]
  cases hformula : defn.derivedFormulaCode with
  | none => simp [MatchedRows.calculation]
  | some formula =>
    rw [isSome_calculation_iff h ?_]
    · simp
    · rw [neededDerivedFormulas, if_pos huses]
      exact List.mem_filterMap.mpr ⟨defn, hdefn, hformula⟩

/-- **A target has a cell** if there is a figure for it. -/
theorem isSome_cellAt_iff (h : matchRows cfg d organizationId payload order defs = .ok found)
    {scaleDiv : ℚ} {t : TargetMeasure} (ht : t.definition ∈ defs) :
    (found.cellAt payload scaleDiv inst period t).isSome ↔
      FigureAt cfg d organizationId payload inst period t := by
  have hreported := fun huses => isSome_fact_measure_iff inst period h huses ht
  have hderived := fun huses => isSome_calculation_measure_iff inst period h huses ht
  rw [MatchedRows.cellAt, Option.isSome_map, FigureAt]
  cases hpolicy : policyOf payload with
  | sourceReportedOnly => simpa [selectValue] using hreported (by rw [hpolicy]; rfl)
  | systemDerivedOnly => simpa [selectValue] using hderived (by rw [hpolicy]; rfl)
  | preferSourceReported =>
    dsimp only
    rw [← hreported (by rw [hpolicy]; rfl), ← hderived (by rw [hpolicy]; rfl)]
    simp [selectValue, Option.isSome_or]
  | preferSystemDerived =>
    dsimp only
    rw [← hreported (by rw [hpolicy]; rfl), ← hderived (by rw [hpolicy]; rfl)]
    simp [selectValue, Option.isSome_or, or_comm]
  | bothSeparateSeries =>
    dsimp only
    rw [← hreported (by rw [hpolicy]; rfl), ← hderived (by rw [hpolicy]; rfl)]
    cases t.defaultOrigin <;> simp [selectValue]

end Figures

/-! ## Coverage -/

section Coverage

variable (cfg : ComparisonConfig) (d : ComparisonDb) (organizationId : Uuid)
  (payload : ComparisonRequestDTO Uuid)

/-- The policy makes a target of the measure that is asked for. -/
def Targeted (sel : SemanticMeasureSelectorDTO) : Prop :=
  ∃ defn, SemanticMeasureRegistry.get sel.semantic_measure_code = .ok defn ∧
    defn.targets (policyOf payload) ≠ []

/-- A target that the policy makes of a measure that is asked for. -/
def RequestTarget (t : TargetMeasure) : Prop :=
  ∃ sel ∈ payload.semantic_measures.val, ∃ defn,
    SemanticMeasureRegistry.get sel.semantic_measure_code = .ok defn ∧
      t ∈ defn.targets (policyOf payload)

/-- Every measure that is asked for has a cell for every institution and period. -/
def CoversRequest (rows : List DatasetRow) : Prop :=
  ∀ sel ∈ payload.semantic_measures.val, ∀ inst ∈ payload.institution_ids.val,
    ∀ period ∈ payload.reporting_period_ids.val,
      ∃ row ∈ rows, row.institutionId = inst ∧ row.reportingPeriodId = period ∧
        ∃ entry ∈ row.cells, entry.2.semanticMeasureCode = sel.semantic_measure_code

/-- What is called complete covers the request. -/
def CompleteCovers (rows : List DatasetRow) (quality : DataQualitySummary) : Prop :=
  (payload.common_period_policy.val = "STRICT_COMMON_PERIOD" → CoversRequest payload rows) ∧
    (payload.common_period_policy.val = "ALLOW_PARTIAL_WITH_WARNINGS" →
      quality.completenessPercentage = "100.00" → CoversRequest payload rows)

/-- A figure is missing of a target. -/
def MissesFigure : Prop :=
  ∃ t, RequestTarget payload t ∧ ∃ inst ∈ payload.institution_ids.val,
    ∃ period ∈ payload.reporting_period_ids.val,
      ¬ FigureAt cfg d organizationId payload inst period t

/-- Nothing that has no target is called complete. -/
def CompleteWhenTargeted : Prop :=
  (∀ sel ∈ payload.semantic_measures.val, Targeted payload sel) ∨
    payload.common_period_policy.val = "ALLOW_PARTIAL_WITH_WARNINGS" ∧
      ((∀ sel ∈ payload.semantic_measures.val, ¬ Targeted payload sel) ∨
        MissesFigure cfg d organizationId payload)

variable {cfg d organizationId payload} {order : RowOrder} {c : Comparison}
  {defs : List SemanticMeasureDefinition} {found : MatchedRows} {scaleDiv : ℚ}
  {sorted : List DatasetRow}

theorem mem_pairsOf {insts : List ComparedInstitution} {periods : List ComparedPeriod}
    {pair : ComparedInstitution × ComparedPeriod} :
    pair ∈ pairsOf insts periods ↔ pair.1 ∈ insts ∧ pair.2 ∈ periods := by
  simp only [pairsOf, List.mem_flatMap, List.mem_map]
  constructor
  · rintro ⟨inst, hinst, period, hperiod, rfl⟩
    exact ⟨hinst, hperiod⟩
  · rintro ⟨hinst, hperiod⟩
    exact ⟨pair.1, hinst, pair.2, hperiod, rfl⟩

theorem mem_allSlots {targets : List TargetMeasure} {insts : List ComparedInstitution}
    {periods : List ComparedPeriod} {s : Slot} :
    s ∈ allSlots targets insts periods ↔
      s.institution ∈ insts ∧ s.period ∈ periods ∧ s.target ∈ targets := by
  simp only [allSlots, slotsOf, List.mem_flatMap, List.mem_map]
  constructor
  · rintro ⟨pair, hpair, t, ht, rfl⟩
    exact ⟨(mem_pairsOf.mp hpair).1, (mem_pairsOf.mp hpair).2, ht⟩
  · rintro ⟨hinst, hperiod, ht⟩
    exact ⟨(s.institution, s.period), mem_pairsOf.mpr ⟨hinst, hperiod⟩, s.target, ht, rfl⟩

/-- The measures with a target. -/
theorem ComputedFrom.mem_targets
    (hc : ComputedFrom cfg d organizationId payload order c defs found scaleDiv sorted)
    {t : TargetMeasure} : t ∈ c.targets ↔ RequestTarget payload t := by
  have hdefs := semanticDefs_eq_ok (resolveRequest_eq_ok hc.resolved).1
  rw [hc.targets, targetMeasures, List.mem_flatMap]
  constructor
  · rintro ⟨defn, hdefn, ht⟩
    obtain ⟨sel, hsel, hget⟩ := hdefs.asked defn hdefn
    exact ⟨sel, hsel, defn, hget, ht⟩
  · rintro ⟨sel, hsel, defn, hget, ht⟩
    obtain ⟨defn', hdefn', hget'⟩ := hdefs.found sel hsel
    obtain rfl := Except.ok.inj (hget.symm.trans hget')
    exact ⟨defn, hdefn', ht⟩

/-- The measure of a target is one that is asked for. -/
theorem ComputedFrom.definition_mem
    (hc : ComputedFrom cfg d organizationId payload order c defs found scaleDiv sorted)
    {t : TargetMeasure} (ht : t ∈ c.targets) : t.definition ∈ defs := by
  rw [hc.targets] at ht
  obtain ⟨defn, hdefn, ht⟩ := List.mem_flatMap.mp ht
  rwa [SemanticMeasureDefinition.definition_of_mem_targets ht]

/-- There is a cell where there is a figure. -/
theorem ComputedFrom.isSome_cellAt
    (hc : ComputedFrom cfg d organizationId payload order c defs found scaleDiv sorted)
    {t : TargetMeasure} (ht : t ∈ c.targets) {inst period : Uuid} :
    (c.cellAt inst period t).isSome ↔ FigureAt cfg d organizationId payload inst period t := by
  rw [hc.cellAt]
  exact isSome_cellAt_iff hc.matched (hc.definition_mem ht)

/-- **No place is empty** if there is a figure for every target. -/
theorem ComputedFrom.unfilled_eq_nil_iff
    (hc : ComputedFrom cfg d organizationId payload order c defs found scaleDiv sorted) :
    unfilled c.cellAt (allSlots c.targets (sortedInstitutions d organizationId payload)
      (sortedPeriods d organizationId payload)) = [] ↔
        ¬ MissesFigure cfg d organizationId payload := by
  rw [unfilled, List.filter_eq_nil_iff]
  constructor
  · rintro h ⟨t, ht, inst, hinst, period, hperiod, hnone⟩
    have htarget := hc.mem_targets.mpr ht
    obtain ⟨pair, hpair, rfl, rfl⟩ := exists_pair hc.resolved hinst hperiod
    have hslot := h ⟨pair.1, pair.2, t⟩
      (mem_allSlots.mpr ⟨(mem_pairsOf.mp hpair).1, (mem_pairsOf.mp hpair).2, htarget⟩)
    rw [← hc.isSome_cellAt htarget] at hnone
    exact hslot (by simpa [Slot.cell] using hnone)
  · intro h s hs hnone
    obtain ⟨hinst, hperiod, htarget⟩ := mem_allSlots.mp hs
    refine h ⟨s.target, hc.mem_targets.mp htarget, s.institution.id, ?_, s.period.id, ?_, ?_⟩
    · exact (map_sortedInstitutions hc.resolved).mem_iff.mp (List.mem_map_of_mem hinst)
    · exact (map_sortedPeriods hc.resolved).mem_iff.mp (List.mem_map_of_mem hperiod)
    · rw [← hc.isSome_cellAt htarget]
      simpa [Slot.cell] using hnone

/-- The cells of a row. -/
theorem ComputedFrom.mem_row_cells
    (hc : ComputedFrom cfg d organizationId payload order c defs found scaleDiv sorted)
    {row : DatasetRow} (hrow : row ∈ c.assembly.rows) {entry : String × DatasetRowCell} :
    entry ∈ row.cells ↔ ∃ t ∈ c.targets, ∃ cell,
      c.cellAt row.institutionId row.reportingPeriodId t = some cell ∧ (t.key, cell) = entry := by
  rw [(assemble_eq_ok hc.assembly).2] at hrow
  obtain ⟨pair, -, hrow⟩ := List.mem_filterMap.mp hrow
  obtain ⟨-, rfl⟩ := rowOf_eq_some_iff.mp hrow
  simp only [datasetRow, cellsOf, List.mem_filterMap, Option.map_eq_some_iff]

/-- A cell is in the row of its institution and period. -/
theorem ComputedFrom.exists_row
    (hc : ComputedFrom cfg d organizationId payload order c defs found scaleDiv sorted)
    {inst period : Uuid} (hinst : inst ∈ payload.institution_ids.val)
    (hperiod : period ∈ payload.reporting_period_ids.val) {t : TargetMeasure} (ht : t ∈ c.targets)
    {cell : DatasetRowCell} (hcell : c.cellAt inst period t = some cell) :
    ∃ row ∈ c.assembly.rows, row.institutionId = inst ∧ row.reportingPeriodId = period ∧
      (t.key, cell) ∈ row.cells := by
  obtain ⟨pair, hpair, rfl, rfl⟩ := exists_pair hc.resolved hinst hperiod
  obtain ⟨hrow, hmem⟩ := (rowOf_eq_some ht hcell : rowOf payload _ _ _ = _ ∧ _)
  refine ⟨datasetRow payload pair.1 pair.2 _, ?_, rfl, rfl, hmem⟩
  rw [(assemble_eq_ok hc.assembly).2]
  exact List.mem_filterMap.mpr ⟨pair, hpair, hrow⟩

/-- A cell carries the code of its measure. -/
theorem ComputedFrom.semanticMeasureCode_cell
    (hc : ComputedFrom cfg d organizationId payload order c defs found scaleDiv sorted)
    {inst period : Uuid} {t : TargetMeasure} {cell : DatasetRowCell}
    (hcell : c.cellAt inst period t = some cell) :
    cell.semanticMeasureCode = t.definition.semanticMeasureCode := by
  rw [hc.cellAt] at hcell
  obtain ⟨v, -, rfl⟩ := Option.map_eq_some_iff.mp hcell
  rfl

/-- **What is covered**: the measures of which every place has a figure for some target. -/
theorem ComputedFrom.coversRequest_iff
    (hc : ComputedFrom cfg d organizationId payload order c defs found scaleDiv sorted) :
    CoversRequest payload c.assembly.rows ↔
      ∀ sel ∈ payload.semantic_measures.val, ∀ inst ∈ payload.institution_ids.val,
        ∀ period ∈ payload.reporting_period_ids.val, ∃ defn,
          SemanticMeasureRegistry.get sel.semantic_measure_code = .ok defn ∧
            ∃ t ∈ defn.targets (policyOf payload),
              FigureAt cfg d organizationId payload inst period t := by
  refine forall₂_congr fun sel hsel => forall₂_congr fun inst hinst =>
    forall₂_congr fun period hperiod => ?_
  constructor
  · rintro ⟨row, hrow, rfl, rfl, entry, hentry, hcode⟩
    obtain ⟨t, ht, cell, hcell, rfl⟩ := (hc.mem_row_cells hrow).mp hentry
    have hfigure := (hc.isSome_cellAt ht).mp (Option.isSome_of_mem hcell)
    obtain ⟨sel', -, defn, hget, ht⟩ := hc.mem_targets.mp ht
    have hdefn : defn.semanticMeasureCode = sel.semantic_measure_code := by
      rw [← hcode, hc.semanticMeasureCode_cell hcell,
        SemanticMeasureDefinition.definition_of_mem_targets ht]
    refine ⟨defn, ?_, t, ht, hfigure⟩
    rw [← hdefn, SemanticMeasureRegistry.code_of_get hget]
    exact hget
  · rintro ⟨defn, hget, t, ht, hfigure⟩
    have htarget := hc.mem_targets.mpr ⟨sel, hsel, defn, hget, ht⟩
    obtain ⟨cell, hcell⟩ := Option.isSome_iff_exists.mp ((hc.isSome_cellAt htarget).mpr hfigure)
    obtain ⟨row, hrow, hi, hp, hmem⟩ := hc.exists_row hinst hperiod htarget hcell
    refine ⟨row, hrow, hi, hp, _, hmem, ?_⟩
    rw [hc.semanticMeasureCode_cell hcell, SemanticMeasureDefinition.definition_of_mem_targets ht,
      SemanticMeasureRegistry.code_of_get hget]

/-- There are at most 6000 places. -/
theorem ComputedFrom.expectedCells_le
    (hc : ComputedFrom cfg d organizationId payload order c defs found scaleDiv sorted) :
    expectedCells payload c.targets ≤ 6000 := by
  have htargets : c.targets.length ≤ 30 := by
    have hdefs := (semanticDefs_eq_ok (resolveRequest_eq_ok hc.resolved).1).length_le
    have hselectors := payload.semantic_measures.property.2
    have hlength := length_targetMeasures_le (policyOf payload) defs
    rw [hc.targets]
    omega
  calc expectedCells payload c.targets ≤ 10 * 20 * 30 :=
      Nat.mul_le_mul (Nat.mul_le_mul payload.institution_ids.property.2
        payload.reporting_period_ids.property.2) htargets
    _ = 6000 := rfl

/-- There are places if there are targets. -/
theorem ComputedFrom.expectedCells_pos_iff
    (hc : ComputedFrom cfg d organizationId payload order c defs found scaleDiv sorted) :
    0 < expectedCells payload c.targets ↔
      ∃ sel ∈ payload.semantic_measures.val, Targeted payload sel := by
  have hinst : 0 < payload.institution_ids.val.length := payload.institution_ids.property.1
  have hperiod : 0 < payload.reporting_period_ids.val.length :=
    payload.reporting_period_ids.property.1
  rw [expectedCells, Nat.mul_pos_iff_of_pos_left (Nat.mul_pos hinst hperiod),
    List.length_pos_iff_exists_mem]
  constructor
  · rintro ⟨t, ht⟩
    obtain ⟨sel, hsel, defn, hget, ht⟩ := hc.mem_targets.mp ht
    exact ⟨sel, hsel, defn, hget, List.ne_nil_of_mem ht⟩
  · rintro ⟨sel, hsel, defn, hget, hne⟩
    obtain ⟨t, ht⟩ := List.exists_mem_of_ne_nil _ hne
    exact ⟨t, hc.mem_targets.mpr ⟨sel, hsel, defn, hget, ht⟩⟩

/-- **The percentage is a hundred** if there are targets and a figure for each. -/
theorem ComputedFrom.completenessPercentage_iff
    (hc : ComputedFrom cfg d organizationId payload order c defs found scaleDiv sorted) :
    c.quality.completenessPercentage = "100.00" ↔
      ¬ MissesFigure cfg d organizationId payload ∧
        ∃ sel ∈ payload.semantic_measures.val, Targeted payload sel := by
  obtain ⟨hcollected, -⟩ := assemble_eq_ok hc.assembly
  obtain ⟨hsum, text, htext, hquality⟩ := dataQuality_eq_ok hc.quality
  have hmissing : c.assembly.populatedCells = expectedCells payload c.targets ↔
      unfilled c.cellAt (allSlots c.targets (sortedInstitutions d organizationId payload)
        (sortedPeriods d organizationId payload)) = [] := by
    rw [← List.length_eq_zero_iff, ← hcollected.missing]
    omega
  rw [hquality, completeness_eq_hundred_iff (by omega) hc.expectedCells_le htext, hmissing,
    hc.unfilled_eq_nil_iff, hc.expectedCells_pos_iff]

/-- **Complete means covered** exactly when the measures have targets, or some place is without a
figure. -/
theorem ComputedFrom.covers_iff_targeted
    (hc : ComputedFrom cfg d organizationId payload order c defs found scaleDiv sorted) :
    CompleteCovers payload c.assembly.rows c.quality ↔
      CompleteWhenTargeted cfg d organizationId payload := by
  have hcollected := (assemble_eq_ok hc.assembly).1
  have hstrict : payload.common_period_policy.val = "STRICT_COMMON_PERIOD" →
      ¬ MissesFigure cfg d organizationId payload := fun hpolicy =>
    hc.unfilled_eq_nil_iff.mp (hcollected.strict hpolicy)
  have htargeted : CoversRequest payload c.assembly.rows →
      ∀ sel ∈ payload.semantic_measures.val, Targeted payload sel := fun hcovers sel hsel => by
    obtain ⟨inst, hinst⟩ := List.exists_mem_of_length_pos payload.institution_ids.property.1
    obtain ⟨period, hperiod⟩ :=
      List.exists_mem_of_length_pos payload.reporting_period_ids.property.1
    obtain ⟨defn, hget, t, ht, -⟩ :=
      hc.coversRequest_iff.mp hcovers sel hsel inst hinst period hperiod
    exact ⟨defn, hget, List.ne_nil_of_mem ht⟩
  have hcovers (hall : ∀ sel ∈ payload.semantic_measures.val, Targeted payload sel)
      (hnone : ¬ MissesFigure cfg d organizationId payload) :
      CoversRequest payload c.assembly.rows := by
    refine hc.coversRequest_iff.mpr fun sel hsel inst hinst period hperiod => ?_
    obtain ⟨defn, hget, hne⟩ := hall sel hsel
    obtain ⟨t, ht⟩ := List.exists_mem_of_ne_nil _ hne
    refine ⟨defn, hget, t, ht, ?_⟩
    by_contra hfigure
    exact hnone ⟨t, ⟨sel, hsel, defn, hget, ht⟩, inst, hinst, period, hperiod, hfigure⟩
  rw [CompleteCovers, CompleteWhenTargeted, hc.completenessPercentage_iff]
  constructor
  · rintro ⟨hs, ha⟩
    by_cases hall : ∀ sel ∈ payload.semantic_measures.val, Targeted payload sel
    · exact Or.inl hall
    · have hpolicy : payload.common_period_policy.val = "ALLOW_PARTIAL_WITH_WARNINGS" := by
        have hmem := payload.common_period_policy.property
        simp only [commonPeriodPolicies, List.mem_cons, List.not_mem_nil, or_false] at hmem
        exact hmem.resolve_left fun hpolicy => hall (htargeted (hs hpolicy))
      refine Or.inr ⟨hpolicy, ?_⟩
      by_contra hneither
      rw [not_or] at hneither
      push Not at hneither
      exact hall (htargeted (ha hpolicy ⟨hneither.2, hneither.1⟩))
  · rintro (hall | ⟨hpolicy, hfree⟩)
    · exact ⟨fun hpolicy => hcovers hall (hstrict hpolicy), fun _ h => hcovers hall h.1⟩
    · refine ⟨fun h => absurd (h.symm.trans hpolicy) (by decide), fun _ h => ?_⟩
      obtain ⟨sel, hsel, htarget⟩ := h.2
      exact (hfree.elim (fun hnone => hnone sel hsel htarget) h.1).elim

end Coverage

/-- **Complete means covered** exactly when the measures have targets, or some place is without a
figure. -/
theorem completeCovers_iff {cfg : ComparisonConfig} {organizationId : Uuid}
    {payload : ComparisonRequestDTO Uuid} {order : RowOrder} {stamp : RunStamp}
    {s s' : ComparisonStore} {response : ComparisonResponse}
    (h : executeComparison cfg organizationId payload order stamp s = .ok (response, s')) :
    ∃ c, compute cfg s.db organizationId payload order = .ok c ∧
      (CompleteCovers payload c.assembly.rows response.resultDataset.dataQualitySummary ↔
        CompleteWhenTargeted cfg s.db organizationId payload) := by
  obtain ⟨c, hc, rfl, -⟩ := executeComparison_eq_ok h
  obtain ⟨defs, found, scaleDiv, sorted, hfrom⟩ := compute_eq_ok hc
  exact ⟨c, hc, hfrom.covers_iff_targeted⟩

/-! ## A measure without a target -/

/-- A request for the growth of a bank in a year, from reported figures only. -/
def growthRequest : ComparisonRequestDTO Uuid where
  institution_ids := ⟨[2], by decide⟩
  semantic_measures := ⟨[{ semantic_measure_code := "GROWTH_RATE"
                           preferred_origin := ⟨"AUTO", auto_mem_preferredOrigins⟩ }], by decide⟩
  reporting_period_ids := ⟨[3], by decide⟩
  reporting_basis := ⟨"SOLO", by decide⟩
  currency := "TRY"
  display_scale := ⟨"ONE", by decide⟩
  value_source_policy := ⟨"SOURCE_REPORTED_ONLY", by decide⟩
  sort_measure_code := none
  sort_origin := none
  sort_direction := ⟨"desc", desc_mem_sortDirections⟩
  top_n := none
  top_n_scope := ⟨"INSTITUTIONS_PER_PERIOD", perPeriod_mem_topNScopes⟩
  comparison_mode := ⟨"CROSS_INSTITUTION", crossInstitution_mem_comparisonModes⟩
  common_period_policy := ⟨"STRICT_COMMON_PERIOD", by decide⟩
  evidence_policy := ⟨"STRICT", by decide⟩
  chart_types := ⟨[], by decide⟩
  include_evidence := true
  include_reconciliation := true
  page := ⟨1, ComparisonRequestDTO.firstPage_bounded⟩
  page_size := ⟨20, ComparisonRequestDTO.defaultPageSize_bounded⟩

/-- A bank and its year, with the tables of its figures. -/
def bankYear (tables : ReferenceTables) : ComparisonStore where
  db :=
    { tables := notRun tables
      institutions := [{ id := 2, organizationId := 1, displayName := "Bank" }]
      periodLabel := fun _ => "2024"
      evidenceCreatedAt := fun _ => 0 }
  runs := []
  datasets := []
  datasets_run := forall_not_stored

/-- Texts in ASCII. -/
def asciiConfig : ComparisonConfig := ⟨ratioConfig, fun text => text.map Char.toLower⟩

theorem growthRequest_answered : ∃ response s',
    executeComparison asciiConfig 1 growthRequest .inserted ⟨100, 101, 0⟩ (bankYear ratioTables) =
      .ok (response, s') := by
  have hok : (executeComparison asciiConfig 1 growthRequest .inserted ⟨100, 101, 0⟩
      (bankYear ratioTables)).isOk = true := by decide +kernel
  obtain ⟨x, hx⟩ := exists_of_isOk hok
  exact ⟨x.1, x.2, hx⟩

/-- Growth is never reported. -/
theorem not_targeted_growth : ¬ CompleteWhenTargeted asciiConfig (bankYear ratioTables).db 1
    growthRequest := by
  rintro (hall | ⟨hpolicy, -⟩)
  · obtain ⟨defn, hget, hne⟩ := hall _ (List.mem_singleton_self _)
    have htargets : (SemanticMeasureRegistry.get "GROWTH_RATE").toOption.map
        (·.targets (policyOf growthRequest)) = some [] := by decide +kernel
    rw [show SemanticMeasureRegistry.get "GROWTH_RATE" = .ok defn from hget] at htargets
    exact hne (Option.some.inj htargets)
  · exact absurd hpolicy (by decide)

/-- The answer on a single bank. -/
theorem completeCovers_iff_growth : ∃ response s',
    executeComparison asciiConfig 1 growthRequest .inserted ⟨100, 101, 0⟩ (bankYear ratioTables) =
      .ok (response, s') ∧
    ∃ c, compute asciiConfig (bankYear ratioTables).db 1 growthRequest .inserted = .ok c ∧
      (CompleteCovers growthRequest c.assembly.rows response.resultDataset.dataQualitySummary ↔
        CompleteWhenTargeted asciiConfig (bankYear ratioTables).db 1 growthRequest) := by
  obtain ⟨response, s', h⟩ := growthRequest_answered
  exact ⟨response, s', h, completeCovers_iff h⟩

/-- **A measure that is lost**: nothing may be missing, growth is asked for, and the answer has no
cell at all. -/
theorem not_completeCovers_growth : ∃ response s' c,
    executeComparison asciiConfig 1 growthRequest .inserted ⟨100, 101, 0⟩ (bankYear ratioTables) =
      .ok (response, s') ∧
    compute asciiConfig (bankYear ratioTables).db 1 growthRequest .inserted = .ok c ∧
    ¬ CompleteCovers growthRequest c.assembly.rows response.resultDataset.dataQualitySummary := by
  obtain ⟨response, s', h⟩ := growthRequest_answered
  obtain ⟨c, hc, hresponse, -⟩ := executeComparison_eq_ok h
  obtain ⟨defs, found, scaleDiv, sorted, hfrom⟩ := compute_eq_ok hc
  refine ⟨response, s', c, h, hc, ?_⟩
  rw [hresponse]
  exact mt hfrom.covers_iff_targeted.mp not_targeted_growth

end ComparisonService

end FinanceIntelligence
