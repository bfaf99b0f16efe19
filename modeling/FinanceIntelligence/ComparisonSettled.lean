import FinanceIntelligence.ComparisonReferences

/-!
# The calculations that a comparison shows

The query of the calculations looks neither at the basis of their inputs nor at whether the facts
behind them are still active, and of several figures for one place the one that the database
returns last is shown. The answer is the right one, and the same in every order, where the figures
are settled: one figure for each place, made of active facts of the basis.

* `compute_of_settled` — **the order of the rows** does not matter.
* `respectsRequest_of_settled` — **derived cells** are those that the request asks for.
-/

namespace FinanceIntelligence

namespace ComparisonService

/-! ## Settled figures -/

section Definitions

variable (cfg : ComparisonConfig) (d : ComparisonDb) (organizationId : Uuid)
  (payload : ComparisonRequestDTO Uuid) (inst period : Uuid)

/-- A reported figure that can be shown for a measure. -/
def ReportedFigure (defn : SemanticMeasureDefinition) (x : MatchedFact) : Prop :=
  ∃ metric ∈ defn.reportedMetricCode, ∃ f ∈ factRows d organizationId payload [metric],
    f.institutionId = inst ∧ f.reportingPeriodId = period ∧
      usableFact cfg d organizationId payload f = .ok (some x)

/-- A derived figure that can be shown for a measure. -/
def DerivedFigure (defn : SemanticMeasureDefinition) (x : MatchedCalc) : Prop :=
  ∃ formula ∈ defn.derivedFormulaCode, ∃ row ∈ calculationRows d organizationId payload [formula],
    row.1.institutionId = inst ∧ row.1.reportingPeriodId = period ∧
      usableCalculation cfg d organizationId row = .ok (some x)

/-- The policy takes a reported figure for the target. -/
def TakesReported (t : TargetMeasure) : Prop :=
  match policyOf payload with
  | .sourceReportedOnly | .preferSourceReported => True
  | .systemDerivedOnly => False
  | .preferSystemDerived => ¬ MeasureDerived cfg d organizationId payload inst period t.definition
  | .bothSeparateSeries => t.defaultOrigin = .sourceReported

/-- The policy takes a derived figure for the target. -/
def TakesDerived (t : TargetMeasure) : Prop :=
  match policyOf payload with
  | .systemDerivedOnly | .preferSystemDerived => True
  | .sourceReportedOnly => False
  | .preferSourceReported => ¬ MeasureReported cfg d organizationId payload inst period t.definition
  | .bothSeparateSeries => t.defaultOrigin = .systemDerived

/-- The inputs of a calculation have a basis, and their facts are active. -/
def RightInputs (basis : String) (c : Calculation) : Prop :=
  ∀ i ∈ d.tables.inputs, i.calculationId = c.id →
    basisText i.reportingBasisSnapshot = basis ∧
      ∃ f ∈ d.tables.facts, f.id = i.financialFactId ∧ f.isActive = true

/-- **Settled figures**: at each place no two that the policy takes, and derived ones of active
facts of the basis that is asked for. -/
structure Settled : Prop where
  /-- one reported figure -/
  reported : ∀ inst ∈ payload.institution_ids.val, ∀ period ∈ payload.reporting_period_ids.val,
    ∀ t, RequestTarget payload t → TakesReported cfg d organizationId payload inst period t →
      ∀ x y, ReportedFigure cfg d organizationId payload inst period t.definition x →
        ReportedFigure cfg d organizationId payload inst period t.definition y → x = y
  /-- one derived figure -/
  derived : ∀ inst ∈ payload.institution_ids.val, ∀ period ∈ payload.reporting_period_ids.val,
    ∀ t, RequestTarget payload t → TakesDerived cfg d organizationId payload inst period t →
      ∀ x y, DerivedFigure cfg d organizationId payload inst period t.definition x →
        DerivedFigure cfg d organizationId payload inst period t.definition y → x = y
  inputs : ∀ inst ∈ payload.institution_ids.val, ∀ period ∈ payload.reporting_period_ids.val,
    ∀ t, RequestTarget payload t → TakesDerived cfg d organizationId payload inst period t →
      ∀ x, DerivedFigure cfg d organizationId payload inst period t.definition x →
        RightInputs d payload.reporting_basis.val x.1

/-- The cells of rows, with their places. -/
def cellsOfRows (rows : List DatasetRow) : List ((Uuid × Uuid) × String × DatasetRowCell) :=
  rows.flatMap fun row => row.cells.map (Prod.mk row.place)

/-- A derived cell refers to a calculation of active facts of the basis. -/
def RightCell (basis : String) (cell : DatasetRowCell) : Prop :=
  ∃ c ∈ d.tables.calculations, cell.calculationId = some c.id ∧ RightInputs d basis c

end Definitions

/-- **An answer respects its request**: its derived cells are made of active facts of the basis,
and its cells are the same for every order of the rows. -/
def RespectsRequest (cfg : ComparisonConfig) (organizationId : Uuid)
    (payload : ComparisonRequestDTO Uuid) (s : ComparisonStore) : Prop :=
  ∀ order stamp response s',
    executeComparison cfg organizationId payload order stamp s = .ok (response, s') →
    ∃ c, compute cfg s.db organizationId payload order = .ok c ∧
      s' = s.add (datasetRecord organizationId response c.rows) ∧
      (∀ row ∈ c.rows, ∀ entry ∈ row.cells, entry.2.valueOrigin = .systemDerived →
        RightCell s.db payload.reporting_basis.val entry.2) ∧
      ∀ order', ∃ response' t c',
        executeComparison cfg organizationId payload order' stamp s = .ok (response', t) ∧
        compute cfg s.db organizationId payload order' = .ok c' ∧
        t = s.add (datasetRecord organizationId response' c'.rows) ∧
        ∀ x, x ∈ cellsOfRows c'.rows ↔ x ∈ cellsOfRows c.rows

/-! ## Orders -/

section Orders

variable {cfg : ComparisonConfig} {d : ComparisonDb} {organizationId : Uuid}
  {payload : ComparisonRequestDTO Uuid} {order order' : RowOrder}
  {defs : List SemanticMeasureDefinition} {found found' : MatchedRows} {inst period : Uuid}

/-- Rows are kept if none of them raises. -/
theorem isOk_keepRows {α β : Type} {f : α → Except ComparisonExc (Option β)} {l : List α} :
    (keepRows f l).isOk = true ↔ ∀ a ∈ l, (f a).isOk = true := by
  induction l with
  | nil => simp [keepRows, Except.isOk, Except.toBool]
  | cons a l ih =>
    rw [List.forall_mem_cons, ← ih, keepRows]
    cases f a with
    | error e => simp [bind, Except.bind, Except.isOk, Except.toBool]
    | ok kept =>
      cases keepRows f l <;> simp [bind, Except.bind, pure, Except.pure, Except.isOk, Except.toBool]

/-- What is found in one order is found in every order. -/
theorem exists_matchRows (h : matchRows cfg d organizationId payload order defs = .ok found)
    (order' : RowOrder) :
    ∃ found', matchRows cfg d organizationId payload order' defs = .ok found' := by
  obtain ⟨facts, hfacts, h⟩ := exceptBind_eq_ok.mp h
  obtain ⟨calculations, hcalculations, -⟩ := exceptBind_eq_ok.mp h
  have hall {α : Type} {β : Type} {f : α → Except ComparisonExc (Option β)} {l l' : List α}
      {kept : List β} (hperm : l'.Perm l) (hkept : keepRows f l = .ok kept) :
      ∃ kept', keepRows f l' = .ok kept' := by
    have hok := isOk_keepRows.mp (by rw [hkept]; rfl)
    exact exists_of_isOk (isOk_keepRows.mpr fun a ha => hok a (hperm.mem_iff.mp ha))
  obtain ⟨facts', hfacts'⟩ := hall ((order'.facts_perm _).trans (order.facts_perm _).symm) hfacts
  obtain ⟨calculations', hcalculations'⟩ :=
    hall ((order'.calculations_perm _).trans (order.calculations_perm _).symm) hcalculations
  refine ⟨⟨facts', calculations'⟩, ?_⟩
  rw [matchRows]
  simp only [hfacts', hcalculations']
  rfl

/-- A fact that is found is one that can be shown. -/
theorem reportedFigure_of_mem (h : matchRows cfg d organizationId payload order defs = .ok found)
    {x : MatchedFact} (hx : x ∈ found.facts) (hinst : x.1.institutionId = inst)
    (hperiod : x.1.reportingPeriodId = period) {defn : SemanticMeasureDefinition}
    (hmetric : defn.reportedMetricCode = some x.1.metricCode) :
    ReportedFigure cfg d organizationId payload inst period defn x := by
  obtain ⟨f, hf, hx⟩ := (mem_found_facts h).mp hx
  obtain rfl := usableFact_eq_some hx
  exact ⟨x.1.metricCode, hmetric, x.1, (mem_factRows_iff (metricCode_mem hf)).mp hf, hinst, hperiod,
    hx⟩

/-- A calculation that is found is one that can be shown. -/
theorem derivedFigure_of_mem (h : matchRows cfg d organizationId payload order defs = .ok found)
    {x : MatchedCalc} (hx : x ∈ found.calculations) (hinst : x.1.institutionId = inst)
    (hperiod : x.1.reportingPeriodId = period) {defn : SemanticMeasureDefinition}
    (hformula : defn.derivedFormulaCode = some x.1.formulaCode) :
    DerivedFigure cfg d organizationId payload inst period defn x := by
  obtain ⟨row, hrow, husable⟩ := (mem_found_calculations h).mp hx
  rw [usableCalculation_eq_some husable] at hinst hperiod hformula
  exact ⟨row.1.formulaCode, hformula, row, (mem_calculationRows_iff (formulaCode_mem hrow)).mp hrow,
    hinst, hperiod, husable⟩

/-- The fact of a measure is one that can be shown. -/
theorem reportedFigure_of_fact (h : matchRows cfg d organizationId payload order defs = .ok found)
    {defn : SemanticMeasureDefinition} {x : MatchedFact}
    (hx : found.fact inst period defn.reportedMetricCode = some x) :
    ReportedFigure cfg d organizationId payload inst period defn x := by
  obtain ⟨metric, hmetric, hx⟩ := Option.bind_eq_some_iff.mp hx
  obtain ⟨hmem, hkey⟩ := List.mem_filter.mp (List.mem_of_getLast? hx)
  simp only [Bool.and_eq_true, beq_iff_eq] at hkey
  obtain ⟨⟨hinst, hperiod⟩, rfl⟩ := hkey
  exact reportedFigure_of_mem h hmem hinst hperiod hmetric

/-- The calculation of a measure is one that can be shown. -/
theorem derivedFigure_of_calculation
    (h : matchRows cfg d organizationId payload order defs = .ok found)
    {defn : SemanticMeasureDefinition} {x : MatchedCalc}
    (hx : found.calculation inst period defn.derivedFormulaCode = some x) :
    DerivedFigure cfg d organizationId payload inst period defn x := by
  obtain ⟨formula, hformula, hx⟩ := Option.bind_eq_some_iff.mp hx
  obtain ⟨hmem, hkey⟩ := List.mem_filter.mp (List.mem_of_getLast? hx)
  simp only [Bool.and_eq_true, beq_iff_eq] at hkey
  obtain ⟨⟨hinst, hperiod⟩, rfl⟩ := hkey
  exact derivedFigure_of_mem h hmem hinst hperiod hformula

theorem DerivedFigure.mem {defn : SemanticMeasureDefinition} {x : MatchedCalc}
    (hx : DerivedFigure cfg d organizationId payload inst period defn x) :
    x.1 ∈ d.tables.calculations := by
  obtain ⟨_, -, row, hrow, -, -, hx⟩ := hx
  obtain ⟨c, hc, hrow⟩ := List.mem_flatMap.mp hrow
  obtain ⟨a, -, rfl⟩ := List.mem_map.mp hrow
  rwa [usableCalculation_eq_some hx]

/-- What is there in both or in neither, and the same if in both. -/
theorem eq_of_isSome_iff {α : Type} {o o' : Option α} (h : o.isSome ↔ o'.isSome)
    (heq : ∀ x y, o = some x → o' = some y → x = y) : o = o' := by
  cases o <;> cases o' <;> simp_all

/-- **A cell does not depend on the order** if the figures are settled. -/
theorem cellAt_of_settled (hs : Settled cfg d organizationId payload)
    (h : matchRows cfg d organizationId payload order defs = .ok found)
    (h' : matchRows cfg d organizationId payload order' defs = .ok found')
    (hinst : inst ∈ payload.institution_ids.val)
    (hperiod : period ∈ payload.reporting_period_ids.val)
    {t : TargetMeasure} (ht : RequestTarget payload t) (hdefn : t.definition ∈ defs)
    (scaleDiv : ℚ) :
    found'.cellAt payload scaleDiv inst period t = found.cellAt payload scaleDiv inst period t := by
  have hfact (huses : (policyOf payload).usesReported)
      (htakes : TakesReported cfg d organizationId payload inst period t) :
      found'.fact inst period t.definition.reportedMetricCode =
        found.fact inst period t.definition.reportedMetricCode := by
    refine eq_of_isSome_iff ?_ fun x y hx hy => hs.reported inst hinst period hperiod t ht htakes
      x y (reportedFigure_of_fact h' hx) (reportedFigure_of_fact h hy)
    rw [isSome_fact_measure_iff inst period h' huses hdefn,
      isSome_fact_measure_iff inst period h huses hdefn]
  have hcalculation (huses : (policyOf payload).usesDerived)
      (htakes : TakesDerived cfg d organizationId payload inst period t) :
      found'.calculation inst period t.definition.derivedFormulaCode =
        found.calculation inst period t.definition.derivedFormulaCode := by
    refine eq_of_isSome_iff ?_ fun x y hx hy => hs.derived inst hinst period hperiod t ht htakes
      x y (derivedFigure_of_calculation h' hx) (derivedFigure_of_calculation h hy)
    rw [isSome_calculation_measure_iff inst period h' huses hdefn,
      isSome_calculation_measure_iff inst period h huses hdefn]
  rw [MatchedRows.cellAt, MatchedRows.cellAt]
  congr 1
  simp only [TakesReported, TakesDerived] at hfact hcalculation
  cases hpolicy : policyOf payload with
  | sourceReportedOnly =>
    rw [hpolicy] at hfact
    rw [selectValue, selectValue, hfact rfl trivial]
  | systemDerivedOnly =>
    rw [hpolicy] at hcalculation
    rw [selectValue, selectValue, hcalculation rfl trivial]
  | preferSourceReported =>
    have huses : (policyOf payload).usesReported := by rw [hpolicy]; rfl
    rw [hpolicy] at hfact hcalculation
    rw [selectValue, selectValue, hfact rfl trivial]
    by_cases hmeasure : MeasureReported cfg d organizationId payload inst period t.definition
    · obtain ⟨x, hx⟩ := Option.isSome_iff_exists.mp
        ((isSome_fact_measure_iff inst period h huses hdefn).mpr hmeasure)
      simp [hx]
    · rw [hcalculation rfl hmeasure]
  | preferSystemDerived =>
    have huses : (policyOf payload).usesDerived := by rw [hpolicy]; rfl
    rw [hpolicy] at hfact hcalculation
    rw [selectValue, selectValue, hcalculation rfl trivial]
    by_cases hmeasure : MeasureDerived cfg d organizationId payload inst period t.definition
    · obtain ⟨x, hx⟩ := Option.isSome_iff_exists.mp
        ((isSome_calculation_measure_iff inst period h huses hdefn).mpr hmeasure)
      simp [hx]
    · rw [hfact rfl hmeasure]
  | bothSeparateSeries =>
    rw [hpolicy] at hfact hcalculation
    cases horigin : t.defaultOrigin with
    | sourceReported => rw [selectValue, selectValue, hfact rfl horigin]
    | systemDerived => rw [selectValue, selectValue, hcalculation rfl horigin]

end Orders

/-! ## Answers -/

section Answers

variable {cfg : ComparisonConfig} {d : ComparisonDb} {organizationId : Uuid}
  {payload : ComparisonRequestDTO Uuid} {order : RowOrder} {c : Comparison}
  {defs : List SemanticMeasureDefinition} {found : MatchedRows} {scaleDiv : ℚ}
  {sorted : List DatasetRow}

/-- Steps that do the same on the members of a list. -/
theorem foldlM_congr_of_mem {α σ ε : Type} {f g : σ → α → Except ε σ} {l : List α}
    (h : ∀ a ∈ l, ∀ s, f s a = g s a) (s : σ) : l.foldlM f s = l.foldlM g s := by
  induction l generalizing s with
  | nil => rfl
  | cons a l ih =>
    rw [List.foldlM_cons, List.foldlM_cons, h a List.mem_cons_self]
    exact congrArg _ (funext fun t => ih (fun b hb => h b (List.mem_cons_of_mem _ hb)) t)

/-- The loops look at the cells of the request only. -/
theorem assemble_congr {cellAt cellAt' : CellSource} {targets : List TargetMeasure}
    {insts : List ComparedInstitution} {periods : List ComparedPeriod}
    (h : ∀ inst ∈ insts, ∀ period ∈ periods, ∀ t ∈ targets,
      cellAt' inst.id period.id t = cellAt inst.id period.id t) :
    assemble payload cellAt' targets insts periods =
      assemble payload cellAt targets insts periods := by
  refine foldlM_congr_of_mem (fun pair hpair a => ?_) ({} : Assembly)
  obtain ⟨hinst, hperiod⟩ := mem_pairsOf.mp hpair
  rw [addRow, addRow]
  refine congrArg (· >>= _) (foldlM_congr_of_mem (fun t ht x => ?_) _)
  rw [addTarget, addTarget, h pair.1 hinst pair.2 hperiod t ht]

/-- **The order of the rows** does not matter if the figures are settled. -/
theorem compute_of_settled (hs : Settled cfg d organizationId payload)
    (hc : compute cfg d organizationId payload order = .ok c) (order' : RowOrder) :
    ∃ cellAt, compute cfg d organizationId payload order' = .ok { c with cellAt } := by
  obtain ⟨defs, found, scaleDiv, sorted, hfrom⟩ := compute_eq_ok hc
  obtain ⟨found', hfound'⟩ := exists_matchRows hfrom.matched order'
  have hcells : ∀ inst ∈ sortedInstitutions d organizationId payload,
      ∀ period ∈ sortedPeriods d organizationId payload, ∀ t ∈ c.targets,
        found'.cellAt payload scaleDiv inst.id period.id t = c.cellAt inst.id period.id t := by
    intro inst hinst period hperiod t ht
    have hrequest := hfrom.mem_targets.mp ht
    rw [hfrom.cellAt]
    exact cellAt_of_settled hs hfrom.matched hfound'
      ((map_sortedInstitutions hfrom.resolved).mem_iff.mp (List.mem_map_of_mem hinst))
      ((map_sortedPeriods hfrom.resolved).mem_iff.mp (List.mem_map_of_mem hperiod)) hrequest
      (hfrom.definition_mem ht) scaleDiv
  have hassembly : assemble payload _ c.targets _ _ = _ :=
    (assemble_congr hcells).trans hfrom.assembly
  have hquality := hfrom.quality
  have hrows := hfrom.rows
  rw [hfrom.targets] at hassembly hquality
  refine ⟨found'.cellAt payload scaleDiv, ?_⟩
  rw [compute, hfrom.resolved]
  simp only [bind, Except.bind, hfound', hfrom.scale, hassembly, hfrom.order, hquality]
  rw [← hrows, ← hfrom.targets]
  rfl

/-- A derived cell shows a figure that the policy takes. -/
theorem ComputedFrom.exists_derived
    (hc : ComputedFrom cfg d organizationId payload order c defs found scaleDiv sorted)
    {row : DatasetRow} (hrow : row ∈ c.rows) {entry : String × DatasetRowCell}
    (hentry : entry ∈ row.cells) (horigin : entry.2.valueOrigin = .systemDerived) :
    ∃ inst ∈ payload.institution_ids.val, ∃ period ∈ payload.reporting_period_ids.val,
      ∃ t, RequestTarget payload t ∧ TakesDerived cfg d organizationId payload inst period t ∧
        ∃ x, DerivedFigure cfg d organizationId payload inst period t.definition x ∧
          entry.2.calculationId = some x.1.id := by
  have hmem := hc.mem_of_mem_rows hrow
  obtain ⟨hinst, hperiod⟩ := List.mem_product.mp (hc.place_mem hmem)
  obtain ⟨t, ht, cell, hcell, rfl⟩ := (hc.mem_row_cells hmem).mp hentry
  have hdefn := hc.definition_mem ht
  rw [hc.cellAt] at hcell
  refine ⟨row.institutionId, hinst, row.reportingPeriodId, hperiod, t, hc.mem_targets.mp ht, ?_, ?_⟩
  · obtain ⟨-, hpolicy⟩ := exists_derived_iff.mp ⟨cell, hcell, horigin⟩
    rw [TakesDerived]
    cases hpolicy' : policyOf payload with
    | preferSourceReported =>
      rw [hpolicy'] at hpolicy
      rwa [isSome_fact_measure_iff _ _ hc.matched (by rw [hpolicy']; rfl) hdefn] at hpolicy
    | _ =>
      rw [hpolicy'] at hpolicy
      exact hpolicy
  · obtain ⟨x, hx⟩ | ⟨x, hx⟩ := cellAt_eq_some hcell
    · rw [hx.origin] at horigin
      cases horigin
    · exact ⟨x, derivedFigure_of_mem hc.matched hx.mem hx.institution hx.period hx.formula,
        hx.calculation⟩

/-- **Derived cells** are those that the request asks for, if the figures are settled. -/
theorem rightCell_of_settled (hs : Settled cfg d organizationId payload)
    (hc : compute cfg d organizationId payload order = .ok c) {row : DatasetRow}
    (hrow : row ∈ c.rows) {entry : String × DatasetRowCell} (hentry : entry ∈ row.cells)
    (horigin : entry.2.valueOrigin = .systemDerived) :
    RightCell d payload.reporting_basis.val entry.2 := by
  obtain ⟨defs, found, scaleDiv, sorted, hfrom⟩ := compute_eq_ok hc
  obtain ⟨inst, hinst, period, hperiod, t, ht, htakes, x, hx, hid⟩ :=
    hfrom.exists_derived hrow hentry horigin
  exact ⟨x.1, hx.mem, hid, hs.inputs inst hinst period hperiod t ht htakes x hx⟩

/-- **Settled figures are shown rightly**, in every order of the rows. -/
theorem respectsRequest_of_settled {s : ComparisonStore}
    (hs : Settled cfg s.db organizationId payload) :
    RespectsRequest cfg organizationId payload s := by
  intro order stamp response s' h
  obtain ⟨c, hc, hresponse, hs'⟩ := executeComparison_eq_ok h
  refine ⟨c, hc, hs', fun row hrow entry hentry horigin =>
    rightCell_of_settled hs hc hrow hentry horigin, fun order' => ?_⟩
  obtain ⟨cellAt, hc'⟩ := compute_of_settled hs hc order'
  refine ⟨respond payload stamp c.assembly c.quality c.rows, _, { c with cellAt }, ?_, hc', rfl,
    fun _ => Iff.rfl⟩
  rw [executeComparison, hc] at h
  rw [executeComparison, hc']
  dsimp only [bind, Except.bind] at h ⊢
  split at h
  · cases h
  · rename_i hfresh
    rw [if_neg hfresh]
    rfl

end Answers

/-! ## Unsettled figures -/

section Unsettled

variable {cfg : ComparisonConfig} {d : ComparisonDb} {organizationId : Uuid}
  {payload : ComparisonRequestDTO Uuid} {defs : List SemanticMeasureDefinition}
  {found : MatchedRows} {inst period : Uuid} {t : TargetMeasure} {scaleDiv : ℚ}

/-- A list with a member put last. -/
def putLast {α : Type} [DecidableEq α] (a : α) (l : List α) : List α :=
  l.filter (· ≠ a) ++ l.filter (· = a)

theorem putLast_perm {α : Type} [DecidableEq α] (a : α) (l : List α) : (putLast a l).Perm l := by
  have hperm := List.filter_append_perm (fun b => decide (b = a)) l
  simp only [← decide_not] at hperm
  exact List.perm_append_comm.trans hperm

/-- The order that puts a fact last. -/
def lastFact (f : FinancialFact) : RowOrder :=
  ⟨putLast f, putLast_perm f, id, RowOrder.calculations_stored⟩

/-- The order that puts a calculation last. -/
def lastCalculation (row : Calculation × CalculationAttempt) : RowOrder :=
  ⟨id, RowOrder.facts_stored, putLast row, putLast_perm row⟩

/-- What is kept of two lists. -/
theorem keepRows_append {α β : Type} {f : α → Except ComparisonExc (Option β)} {l l' : List α}
    {kept : List β} (h : keepRows f (l ++ l') = .ok kept) :
    ∃ k k', keepRows f l = .ok k ∧ keepRows f l' = .ok k' ∧ kept = k ++ k' := by
  induction l generalizing kept with
  | nil => exact ⟨[], kept, rfl, h, rfl⟩
  | cons a l ih =>
    obtain ⟨x, hx, h⟩ := exceptBind_eq_ok.mp h
    obtain ⟨rest, hrest, h⟩ := exceptBind_eq_ok.mp h
    obtain rfl := Except.ok.inj h
    obtain ⟨k, k', hk, hk', rfl⟩ := ih hrest
    refine ⟨x.toList ++ k, k', ?_, hk', (List.append_assoc _ _ _).symm⟩
    rw [keepRows, hx]
    simp only [bind, Except.bind, hk]
    rfl

/-- What is kept of the row that is put last comes last. -/
theorem getLast_keepRows_putLast {α β : Type} [DecidableEq α]
    {f : α → Except ComparisonExc (Option β)} {a : α} {b : β} {l : List α} {kept : List β}
    {p : β → Bool} (hkept : keepRows f (putLast a l) = .ok kept) (ha : a ∈ l)
    (hb : f a = .ok (some b)) (hp : p b = true) : (kept.filter p).getLast? = some b := by
  obtain ⟨k, k', -, hk', rfl⟩ := keepRows_append hkept
  have hmem : b ∈ k' := (mem_keepRows hk').mpr ⟨a, by simpa using ha, hb⟩
  have hall : ∀ x ∈ k', x = b := by
    intro x hx
    obtain ⟨a', ha', hx⟩ := (mem_keepRows hk').mp hx
    obtain rfl : a' = a := by simpa using (List.mem_filter.mp ha').2
    exact Option.some.inj (Except.ok.inj (hx.symm.trans hb))
  obtain ⟨z, hz⟩ := Option.ne_none_iff_exists'.mp
    (mt List.getLast?_eq_none_iff.mp (List.ne_nil_of_mem (List.mem_filter.mpr ⟨hmem, hp⟩)))
  have hzb := hall z (List.mem_filter.mp (List.mem_of_getLast? hz)).1
  rw [List.filter_append, List.getLast?_append, hz, hzb, Option.some_or]

/-- The fact that is put last is the one of its place. -/
theorem fact_lastFact {f : FinancialFact} {x : MatchedFact} {metric : String}
    (h : matchRows cfg d organizationId payload (lastFact f) defs = .ok found)
    (hneeded : metric ∈ neededReportedMetrics (policyOf payload) defs)
    (hf : f ∈ factRows d organizationId payload [metric]) (hinst : f.institutionId = inst)
    (hperiod : f.reportingPeriodId = period)
    (hx : usableFact cfg d organizationId payload f = .ok (some x)) :
    found.fact inst period (some metric) = some x := by
  obtain rfl := List.mem_singleton.mp (metricCode_mem hf)
  obtain ⟨facts, hfacts, h⟩ := exceptBind_eq_ok.mp h
  obtain ⟨calculations, -, h⟩ := exceptBind_eq_ok.mp h
  obtain rfl := Except.ok.inj h
  refine getLast_keepRows_putLast hfacts ((mem_factRows_iff hneeded).mpr hf) hx ?_
  rw [usableFact_eq_some hx]
  simp [hinst, hperiod]

/-- The calculation that is put last is the one of its place. -/
theorem calculation_lastCalculation {row : Calculation × CalculationAttempt} {x : MatchedCalc}
    {formula : String}
    (h : matchRows cfg d organizationId payload (lastCalculation row) defs = .ok found)
    (hneeded : formula ∈ neededDerivedFormulas (policyOf payload) defs)
    (hrow : row ∈ calculationRows d organizationId payload [formula])
    (hinst : row.1.institutionId = inst) (hperiod : row.1.reportingPeriodId = period)
    (hx : usableCalculation cfg d organizationId row = .ok (some x)) :
    found.calculation inst period (some formula) = some x := by
  obtain rfl := List.mem_singleton.mp (formulaCode_mem hrow)
  obtain ⟨facts, -, h⟩ := exceptBind_eq_ok.mp h
  obtain ⟨calculations, hcalculations, h⟩ := exceptBind_eq_ok.mp h
  obtain rfl := Except.ok.inj h
  refine getLast_keepRows_putLast hcalculations ((mem_calculationRows_iff hneeded).mpr hrow) hx ?_
  rw [usableCalculation_eq_some hx]
  simp [hinst, hperiod]

/-- The policy looks for reported figures if it takes one. -/
theorem usesReported_of_takes (h : TakesReported cfg d organizationId payload inst period t) :
    (policyOf payload).usesReported = true := by
  rw [TakesReported] at h
  cases hpolicy : policyOf payload with
  | systemDerivedOnly =>
    rw [hpolicy] at h
    exact h.elim
  | _ => rfl

/-- The policy looks for derived figures if it takes one. -/
theorem usesDerived_of_takes (h : TakesDerived cfg d organizationId payload inst period t) :
    (policyOf payload).usesDerived = true := by
  rw [TakesDerived] at h
  cases hpolicy : policyOf payload with
  | sourceReportedOnly =>
    rw [hpolicy] at h
    exact h.elim
  | _ => rfl

/-- **A reported figure is shown** in the order that puts its fact last. -/
theorem cellAt_lastFact {x : MatchedFact}
    (h : matchRows cfg d organizationId payload (lastFact x.1) defs = .ok found)
    (hdefn : t.definition ∈ defs)
    (htakes : TakesReported cfg d organizationId payload inst period t)
    (hx : ReportedFigure cfg d organizationId payload inst period t.definition x) :
    found.cellAt payload scaleDiv inst period t =
      some (cellOf payload scaleDiv t (.ofFact x)) := by
  have huses := usesReported_of_takes htakes
  obtain ⟨metric, hmetric, f, hf, hinst, hperiod, husable⟩ := hx
  obtain rfl := usableFact_eq_some husable
  have hneeded : metric ∈ neededReportedMetrics (policyOf payload) defs := by
    rw [neededReportedMetrics, if_pos huses]
    exact List.mem_filterMap.mpr ⟨t.definition, hdefn, hmetric⟩
  have hfact : found.fact inst period t.definition.reportedMetricCode = some x := by
    rw [Option.mem_def.mp hmetric]
    exact fact_lastFact h hneeded hf hinst hperiod husable
  rw [MatchedRows.cellAt, hfact]
  rw [TakesReported] at htakes
  cases hpolicy : policyOf payload with
  | sourceReportedOnly => rfl
  | preferSourceReported => rfl
  | systemDerivedOnly =>
    rw [hpolicy] at htakes
    exact htakes.elim
  | preferSystemDerived =>
    have hderived := isSome_calculation_measure_iff inst period h (by rw [hpolicy]; rfl) hdefn
    rw [hpolicy] at htakes
    have hnone := Option.not_isSome_iff_eq_none.mp (mt hderived.mp htakes)
    rw [hnone]
    rfl
  | bothSeparateSeries =>
    rw [hpolicy] at htakes
    rw [show t.defaultOrigin = .sourceReported from htakes]
    rfl

/-- **A derived figure is shown** in the order that puts its calculation last. -/
theorem cellAt_lastCalculation {row : Calculation × CalculationAttempt} {x : MatchedCalc}
    {formula : String}
    (h : matchRows cfg d organizationId payload (lastCalculation row) defs = .ok found)
    (hdefn : t.definition ∈ defs) (htakes : TakesDerived cfg d organizationId payload inst period t)
    (hformula : formula ∈ t.definition.derivedFormulaCode)
    (hrow : row ∈ calculationRows d organizationId payload [formula])
    (hinst : row.1.institutionId = inst) (hperiod : row.1.reportingPeriodId = period)
    (husable : usableCalculation cfg d organizationId row = .ok (some x)) :
    found.cellAt payload scaleDiv inst period t =
      some (cellOf payload scaleDiv t (.ofCalc x)) := by
  have huses := usesDerived_of_takes htakes
  have hneeded : formula ∈ neededDerivedFormulas (policyOf payload) defs := by
    rw [neededDerivedFormulas, if_pos huses]
    exact List.mem_filterMap.mpr ⟨t.definition, hdefn, hformula⟩
  have hcalculation : found.calculation inst period t.definition.derivedFormulaCode = some x := by
    rw [Option.mem_def.mp hformula]
    exact calculation_lastCalculation h hneeded hrow hinst hperiod husable
  rw [MatchedRows.cellAt, hcalculation]
  rw [TakesDerived] at htakes
  cases hpolicy : policyOf payload with
  | systemDerivedOnly => rfl
  | preferSystemDerived => rfl
  | sourceReportedOnly =>
    rw [hpolicy] at htakes
    exact htakes.elim
  | preferSourceReported =>
    have hreported := isSome_fact_measure_iff inst period h (by rw [hpolicy]; rfl) hdefn
    rw [hpolicy] at htakes
    have hnone := Option.not_isSome_iff_eq_none.mp (mt hreported.mp htakes)
    rw [hnone]
    rfl
  | bothSeparateSeries =>
    rw [hpolicy] at htakes
    rw [show t.defaultOrigin = .systemDerived from htakes]
    rfl

end Unsettled

/-! ## Both -/

section Both

variable {cfg : ComparisonConfig} {d : ComparisonDb} {organizationId : Uuid}
  {payload : ComparisonRequestDTO Uuid} {order : RowOrder} {c : Comparison}
  {defs : List SemanticMeasureDefinition} {found : MatchedRows} {scaleDiv : ℚ}
  {sorted : List DatasetRow} {inst period : Uuid} {t : TargetMeasure} {cell cell' : DatasetRowCell}

/-- The primary keys of what is shown. -/
structure KeyedFigures (d : ComparisonDb) : Prop where
  /-- of `financial_facts` -/
  facts : (d.tables.facts.map (·.id)).Nodup
  /-- of `calculations` -/
  calculations : (d.tables.calculations.map (·.id)).Nodup

theorem ReportedFigure.eq_of_id {defn : SemanticMeasureDefinition} {x y : MatchedFact}
    (hkeys : KeyedFigures d) (hx : ReportedFigure cfg d organizationId payload inst period defn x)
    (hy : ReportedFigure cfg d organizationId payload inst period defn y)
    (hid : x.1.id = y.1.id) : x = y := by
  obtain ⟨_, -, f, hf, -, -, hx⟩ := hx
  obtain ⟨_, -, g, hg, -, -, hy⟩ := hy
  rw [usableFact_eq_some hx, usableFact_eq_some hy] at hid
  obtain rfl := List.inj_on_of_nodup_map hkeys.facts (List.mem_filter.mp hf).1
    (List.mem_filter.mp hg).1 hid
  exact Option.some.inj (Except.ok.inj (hx.symm.trans hy))

/-- What is made of a calculation does not depend on the attempt. -/
theorem usableCalculation_value {row : Calculation × CalculationAttempt} {x : MatchedCalc}
    (h : usableCalculation cfg d organizationId row = .ok (some x)) :
    x = (row.1, (d.tables.reconciliations.filter fun r =>
      r.calculationId == row.1.id && r.organizationId == organizationId).head?) := by
  simp only [usableCalculation] at h
  repeat' split at h
  all_goals cases h
  · rename_i hnil
    rw [hnil]
    rfl
  · rename_i hone
    rw [hone]
    rfl

/-- A figure is told by its calculation. -/
theorem DerivedFigure.eq_of_calculation {defn : SemanticMeasureDefinition} {x y : MatchedCalc}
    (hx : DerivedFigure cfg d organizationId payload inst period defn x)
    (hy : DerivedFigure cfg d organizationId payload inst period defn y) (h : x.1 = y.1) :
    x = y := by
  obtain ⟨_, -, row, -, -, -, hx⟩ := hx
  obtain ⟨_, -, row', -, -, -, hy⟩ := hy
  rw [usableCalculation_eq_some hx, usableCalculation_eq_some hy] at h
  rw [usableCalculation_value hx, usableCalculation_value hy, h]

/-- A cell is shown if no row is dropped. -/
theorem ComputedFrom.mem_cellsOfRows
    (hc : ComputedFrom cfg d organizationId payload order c defs found scaleDiv sorted)
    (hcut : NothingCut cfg d organizationId payload) (hinst : inst ∈ payload.institution_ids.val)
    (hperiod : period ∈ payload.reporting_period_ids.val) (ht : t ∈ c.targets)
    (hcell : c.cellAt inst period t = some cell) :
    ((inst, period), t.key, cell) ∈ cellsOfRows c.rows := by
  obtain ⟨row, hrow, rfl, rfl, hentry⟩ := hc.exists_row hinst hperiod ht hcell
  refine List.mem_flatMap.mpr ⟨row, ?_, List.mem_map_of_mem hentry⟩
  rw [hc.rows_eq_iff.mpr hcut]
  exact (perm_of_sortRows hc.order).mem_iff.mpr hrow

/-- There is one cell for a place and a target. -/
theorem ComputedFrom.eq_of_mem_cellsOfRows
    (hc : ComputedFrom cfg d organizationId payload order c defs found scaleDiv sorted)
    {place : Uuid × Uuid} {key : String} (h : (place, key, cell) ∈ cellsOfRows c.rows)
    (h' : (place, key, cell') ∈ cellsOfRows c.rows) : cell = cell' := by
  obtain ⟨row, hrow, h⟩ := List.mem_flatMap.mp h
  obtain ⟨row', hrow', h'⟩ := List.mem_flatMap.mp h'
  obtain ⟨entry, hentry, hplace⟩ := List.mem_map.mp h
  obtain ⟨entry', hentry', hplace'⟩ := List.mem_map.mp h'
  obtain ⟨rfl, rfl⟩ := Prod.mk.inj hplace
  obtain ⟨hsame, rfl⟩ := Prod.mk.inj hplace'
  have hmem := hc.mem_of_mem_rows hrow
  have hmem' := hc.mem_of_mem_rows hrow'
  obtain rfl := hc.eq_of_place hmem' hmem ⟨congrArg Prod.fst hsame, congrArg Prod.snd hsame⟩
  obtain ⟨t, ht, x, hx, hkey⟩ := (hc.mem_row_cells hmem).mp hentry
  obtain ⟨t', ht', x', hx', hkey'⟩ := (hc.mem_row_cells hmem).mp hentry'
  obtain ⟨rfl, rfl⟩ := Prod.mk.inj hkey
  obtain ⟨hsamekey, rfl⟩ := Prod.mk.inj hkey'
  obtain rfl := hc.key_inj ht' ht hsamekey
  exact Option.some.inj (hx.symm.trans hx')

/-- A cell of one order is in every answer that shows the same cells. -/
theorem ComputedFrom.mem_of_order {order' : RowOrder} {c' : Comparison}
    (hc : ComputedFrom cfg d organizationId payload order c defs found scaleDiv sorted)
    (hcut : NothingCut cfg d organizationId payload)
    (hc' : compute cfg d organizationId payload order' = .ok c')
    (hsame : ∀ x, x ∈ cellsOfRows c'.rows ↔ x ∈ cellsOfRows c.rows)
    (hinst : inst ∈ payload.institution_ids.val)
    (hperiod : period ∈ payload.reporting_period_ids.val) (ht : t ∈ c.targets) (v : SelectedValue)
    (hcell : ∀ found', matchRows cfg d organizationId payload order' defs = .ok found' →
      found'.cellAt payload scaleDiv inst period t = some (cellOf payload scaleDiv t v)) :
    ((inst, period), t.key, cellOf payload scaleDiv t v) ∈ cellsOfRows c.rows := by
  obtain ⟨defs', found', scaleDiv', sorted', hfrom'⟩ := compute_eq_ok hc'
  obtain rfl := Except.ok.inj (hc.resolved.symm.trans hfrom'.resolved)
  obtain rfl := Except.ok.inj (hc.scale.symm.trans hfrom'.scale)
  refine (hsame _).mp (hfrom'.mem_cellsOfRows hcut hinst hperiod ?_ ?_)
  · rw [hfrom'.targets, ← hc.targets]
    exact ht
  · rw [hfrom'.cellAt]
    exact hcell found' hfrom'.matched

/-- **What is shown rightly is settled**, if no row is dropped. -/
theorem settled_of_respectsRequest {s s' : ComparisonStore} {stamp : RunStamp}
    {response : ComparisonResponse} (hkeys : KeyedFigures s.db)
    (hcut : NothingCut cfg s.db organizationId payload)
    (h : executeComparison cfg organizationId payload order stamp s = .ok (response, s'))
    (hr : RespectsRequest cfg organizationId payload s) :
    Settled cfg s.db organizationId payload := by
  obtain ⟨c, hc, -, hright, horders⟩ := hr order stamp response s' h
  obtain ⟨defs, found, scaleDiv, sorted, hfrom⟩ := compute_eq_ok hc
  have hfact {inst period : Uuid} (hinst : inst ∈ payload.institution_ids.val)
      (hperiod : period ∈ payload.reporting_period_ids.val) {t : TargetMeasure}
      (ht : t ∈ c.targets) (htakes : TakesReported cfg s.db organizationId payload inst period t)
      (x : MatchedFact)
      (hx : ReportedFigure cfg s.db organizationId payload inst period t.definition x) :
      ((inst, period), t.key, cellOf payload scaleDiv t (.ofFact x)) ∈ cellsOfRows c.rows := by
    obtain ⟨-, -, c', -, hc', -, hsame⟩ := horders (lastFact x.1)
    exact hfrom.mem_of_order hcut hc' hsame hinst hperiod ht _ fun found' hfound' =>
      cellAt_lastFact hfound' (hfrom.definition_mem ht) htakes hx
  have hcalculation {inst period : Uuid} (hinst : inst ∈ payload.institution_ids.val)
      (hperiod : period ∈ payload.reporting_period_ids.val) {t : TargetMeasure}
      (ht : t ∈ c.targets) (htakes : TakesDerived cfg s.db organizationId payload inst period t)
      (x : MatchedCalc)
      (hx : DerivedFigure cfg s.db organizationId payload inst period t.definition x) :
      ((inst, period), t.key, cellOf payload scaleDiv t (.ofCalc x)) ∈ cellsOfRows c.rows := by
    obtain ⟨formula, hformula, row, hrow, hrowinst, hrowperiod, husable⟩ := hx
    obtain ⟨-, -, c', -, hc', -, hsame⟩ := horders (lastCalculation row)
    exact hfrom.mem_of_order hcut hc' hsame hinst hperiod ht _ fun found' hfound' =>
      cellAt_lastCalculation hfound' (hfrom.definition_mem ht) htakes hformula hrow hrowinst
        hrowperiod husable
  exact {
    reported := by
      intro inst hinst period hperiod t ht htakes x y hx hy
      have htarget := hfrom.mem_targets.mpr ht
      have hcells := hfrom.eq_of_mem_cellsOfRows (hfact hinst hperiod htarget htakes x hx)
        (hfact hinst hperiod htarget htakes y hy)
      have hid : x.1.id = y.1.id := Option.some.inj (congrArg DatasetRowCell.factId hcells)
      exact hx.eq_of_id hkeys hy hid
    derived := by
      intro inst hinst period hperiod t ht htakes x y hx hy
      have htarget := hfrom.mem_targets.mpr ht
      have hcells := hfrom.eq_of_mem_cellsOfRows (hcalculation hinst hperiod htarget htakes x hx)
        (hcalculation hinst hperiod htarget htakes y hy)
      have hid : x.1.id = y.1.id := Option.some.inj (congrArg DatasetRowCell.calculationId hcells)
      exact hx.eq_of_calculation hy
        (List.inj_on_of_nodup_map hkeys.calculations hx.mem hy.mem hid)
    inputs := by
      intro inst hinst period hperiod t ht htakes x hx
      have hcell := hcalculation hinst hperiod (hfrom.mem_targets.mpr ht) htakes x hx
      obtain ⟨row, hrow, hcell⟩ := List.mem_flatMap.mp hcell
      obtain ⟨entry, hentry, hcell⟩ := List.mem_map.mp hcell
      obtain ⟨-, rfl⟩ := Prod.mk.inj hcell
      obtain ⟨c₀, hc₀, hid, hinputs⟩ := hright row hrow _ hentry rfl
      rwa [List.inj_on_of_nodup_map hkeys.calculations hx.mem hc₀ (Option.some.inj hid)] }

end Both

end ComparisonService

end FinanceIntelligence
