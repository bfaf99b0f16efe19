import FinanceIntelligence.CalculationStore
import FinanceIntelligence.DecimalText
import FinanceIntelligence.RankedSelection
import FinanceIntelligence.SemanticMeasures
import Mathlib.Data.Finset.Dedup
import Mathlib.Data.Prod.Lex
import Mathlib.Data.String.Basic

/-!
# The dataset of a comparison

What `execute_comparison` makes of the facts and calculations that it has found: the cells, row by
row, the order of the rows and the first of them, a page, and the table, the charts and the summary
of the data quality. Everything here is a function of the request and of the cells.

Nothing is read or stored on the way, so that the modules about cells, references and ranking
speak about these functions alone.
-/

namespace FinanceIntelligence

/-! ## Cells -/

/-- The statuses of a reconciliation that a cell may have. -/
def reconciliationStatuses : List String :=
  ["RECONCILED", "WITHIN_TOLERANCE", "OUTSIDE_TOLERANCE", "NO_SOURCE_REPORTED_COMPARISON",
    "NOT_APPLICABLE"]

/-- The text of an origin. -/
def ValueOrigin.text : ValueOrigin → String
  | sourceReported => "SOURCE_REPORTED"
  | systemDerived => "SYSTEM_DERIVED"

/-- The status that a reconciliation has been stored with. -/
def CalculationService.ReconciliationStatus.label :
    CalculationService.ReconciliationStatus → Literal reconciliationStatuses
  | reconciled => ⟨"RECONCILED", by decide⟩
  | withinTolerance => ⟨"WITHIN_TOLERANCE", by decide⟩
  | outsideTolerance => ⟨"OUTSIDE_TOLERANCE", by decide⟩

/-- `DatasetRowCellDTO`. -/
structure DatasetRowCell where
  measureCode : String
  semanticMeasureCode : String
  canonicalValue : String
  displayValue : String
  valueOrigin : ValueOrigin
  factId : Option Uuid
  calculationId : Option Uuid
  evidenceId : Option Uuid
  reconciliationStatus : Option (Literal reconciliationStatuses)
  warningFlag : Bool
  warningCode : Option String
deriving DecidableEq

/-- The cells of a row, by measure. -/
abbrev RowCells := List (String × DatasetRowCell)

/-- `DatasetRowDTO`. -/
structure DatasetRow where
  rowId : String
  institutionId : Uuid
  institutionName : String
  reportingPeriodId : Uuid
  periodLabel : String
  reportingBasis : String
  cells : RowCells
deriving DecidableEq

/-- `MeasureItemDTO`. -/
structure MeasureItem where
  measureCode : String
  semanticMeasureCode : String
  label : String
  unit : String
  currency : Option String
  scale : String
  valueOrigin : ValueOrigin
  formulaCode : Option String
deriving DecidableEq

/-- An entry of `dataset_warnings`. -/
structure DatasetWarning where
  code : String
  message : String
  institution : String
  period : String
  measure : String
deriving DecidableEq

/-- What a comparison reads of an institution. -/
structure ComparedInstitution where
  id : Uuid
  organizationId : Uuid
  displayName : String
deriving DecidableEq

/-- What a comparison reads of a reporting period. -/
structure ComparedPeriod where
  id : Uuid
  organizationId : Uuid
  startDate : ℕ
  endDate : ℕ
  periodType : String
  label : String
deriving DecidableEq

namespace ComparisonService

/-- `_scale_divisor`. -/
def scaleDivisor (displayScale : String) : Except ComparisonExc ℚ :=
  match [("ONE", (1 : ℚ)), ("THOUSAND", 1000), ("MILLION", 1000000),
      ("BILLION", 1000000000)].lookup displayScale with
  | some divisor => .ok divisor
  | none => .error (.value "SCALE_NORMALIZATION_ERROR")

/-- `_safe_decimal`. -/
def safeDecimal (U : CharClass) (val : String) : Except ComparisonExc ℚ :=
  match decimalOfText U val.toList with
  | some (.finite d) => .ok d
  | _ => .error (.value "INVALID_DECIMAL_VALUE")

/-- `_format_display`. -/
def formatDisplay (value : ℚ) (unit : ResultUnit) (scaleDiv : ℚ) : String :=
  if unit.isRelative then Decimal.format 4 value
  else Decimal.formatGrouped 2 (Decimal.defaultContext.div value scaleDiv)

/-- A fact with the evidence it is shown with. -/
abbrev MatchedFact := FinancialFact × Uuid

/-- A calculation with its reconciliation. -/
abbrev MatchedCalc := Calculation × Option CalculationReconciliation

/-- A value for a cell, and where it comes from. -/
structure SelectedValue where
  /-- `selected_value` -/
  value : ℚ
  /-- the places of the column that it was read from -/
  places : ℕ
  valueOrigin : ValueOrigin
  factId : Option Uuid
  calcId : Option Uuid
  evidenceId : Option Uuid
  /-- the reconciliation of the calculation -/
  reconciliation : Option CalculationReconciliation

/-- The value of a fact. -/
def SelectedValue.ofFact (matched : MatchedFact) : SelectedValue where
  value := matched.1.normalizedValue
  places := 6
  valueOrigin := .sourceReported
  factId := some matched.1.id
  calcId := none
  evidenceId := some matched.2
  reconciliation := none

/-- The value of a calculation. -/
def SelectedValue.ofCalc (matched : MatchedCalc) : SelectedValue where
  value := matched.1.resultValueUnrounded
  places := 10
  valueOrigin := .systemDerived
  factId := none
  calcId := some matched.1.id
  evidenceId := none
  reconciliation := matched.2

/-- The value that a policy selects. -/
def selectValue (policy : ValueSourcePolicy) (defaultOrigin : ValueOrigin)
    (matchedFact : Option MatchedFact) (matchedCalc : Option MatchedCalc) : Option SelectedValue :=
  let reported := matchedFact.map SelectedValue.ofFact
  let derived := matchedCalc.map SelectedValue.ofCalc
  match policy with
  | .sourceReportedOnly => reported
  | .systemDerivedOnly => derived
  | .preferSourceReported => reported.or derived
  | .preferSystemDerived => derived.or reported
  | .bothSeparateSeries =>
    match defaultOrigin with
    | .sourceReported => reported
    | .systemDerived => derived

variable (payload : ComparisonRequestDTO Uuid)

/-- The policy of the request. -/
def policyOf : ValueSourcePolicy := .ofText payload.value_source_policy

/-- The cell of a measure that shows a value. -/
def cellOf (scaleDiv : ℚ) (t : TargetMeasure) (v : SelectedValue) : DatasetRowCell :=
  let recStatus :=
    if v.calcId.isSome && payload.include_reconciliation then
      v.reconciliation.map (·.reconciliationStatus.label)
    else none
  let outside := recStatus.any (·.val == "OUTSIDE_TOLERANCE")
  { measureCode := t.key
    semanticMeasureCode := t.definition.semanticMeasureCode
    canonicalValue := Decimal.str v.places v.value
    displayValue := formatDisplay v.value t.definition.resultUnit scaleDiv
    valueOrigin := v.valueOrigin
    factId := v.factId
    calculationId := v.calcId
    evidenceId := v.evidenceId
    reconciliationStatus := recStatus
    warningFlag := outside
    warningCode := if outside then some "OUTSIDE_TOLERANCE" else none }

/-- The entry of a measure whose first cell is given. -/
def measureItem (t : TargetMeasure) (cell : DatasetRowCell) : MeasureItem where
  measureCode := t.key
  semanticMeasureCode := t.definition.semanticMeasureCode
  label := t.definition.displayName
  unit := t.definition.resultUnit.text
  currency := if t.definition.resultUnit = .currency then some payload.currency else none
  scale := payload.display_scale.val
  valueOrigin := cell.valueOrigin
  formulaCode :=
    match cell.valueOrigin with
    | .systemDerived => t.definition.derivedFormulaCode
    | .sourceReported => none

/-! ## Rows -/

/-- What the loops over institutions, periods and measures have collected. -/
structure Assembly where
  /-- `measures_map` -/
  measures : List MeasureItem := []
  /-- `all_dataset_rows` -/
  rows : List DatasetRow := []
  evidenceRefIds : List Uuid := []
  calcRefIds : List Uuid := []
  /-- `dataset_warnings` -/
  warnings : List DatasetWarning := []
  populatedCells : ℕ := 0
  missingSourceCells : ℕ := 0
  warningCells : ℕ := 0
  srcReportedCount : ℕ := 0
  sysDerivedCount : ℕ := 0
  reconciliationWarningCount : ℕ := 0

/-- A cell that has a value. -/
def Assembly.addCell (t : TargetMeasure) (cell : DatasetRowCell) (a : Assembly) : Assembly :=
  { a with
    measures :=
      if a.measures.any (·.measureCode == t.key) then a.measures
      else a.measures ++ [measureItem payload t cell]
    evidenceRefIds := a.evidenceRefIds ++ cell.evidenceId.toList
    calcRefIds := a.calcRefIds ++ cell.calculationId.toList
    populatedCells := a.populatedCells + 1
    warningCells := a.warningCells + if cell.warningFlag then 1 else 0
    srcReportedCount := a.srcReportedCount + if cell.valueOrigin = .sourceReported then 1 else 0
    sysDerivedCount := a.sysDerivedCount + if cell.valueOrigin = .sourceReported then 0 else 1
    reconciliationWarningCount := a.reconciliationWarningCount +
      if cell.reconciliationStatus.any (·.val == "OUTSIDE_TOLERANCE") then 1 else 0 }

/-- The warning about a cell without a value. -/
def missingDataPoint (inst : ComparedInstitution) (period : ComparedPeriod) (t : TargetMeasure) :
    DatasetWarning where
  code := "MISSING_DATA_POINT"
  message := "Data missing for " ++ inst.displayName ++ " (" ++ period.label ++ ")"
  institution := inst.displayName
  period := period.label
  measure := t.definition.displayName

/-- A cell that has none. -/
def Assembly.addMissing (inst : ComparedInstitution) (period : ComparedPeriod) (t : TargetMeasure)
    (a : Assembly) : Except ComparisonExc Assembly :=
  if payload.common_period_policy.val = "STRICT_COMMON_PERIOD" then
    .error (.value "INCOMPLETE_COMMON_PERIOD")
  else
    .ok { a with
      missingSourceCells := a.missingSourceCells + 1
      warnings :=
        if payload.common_period_policy.val = "ALLOW_PARTIAL_WITH_WARNINGS" then
          a.warnings ++ [missingDataPoint inst period t]
        else a.warnings }

/-- Where the cells come from: institution, period and measure. -/
abbrev CellSource := Uuid → Uuid → TargetMeasure → Option DatasetRowCell

variable (cellAt : CellSource) (targets : List TargetMeasure)

/-- The loop body of a measure; the row's cells are under way. -/
def addTarget (inst : ComparedInstitution) (period : ComparedPeriod) :
    Assembly × RowCells → TargetMeasure → Except ComparisonExc (Assembly × RowCells)
  | (a, cells), t =>
    match cellAt inst.id period.id t with
    | some cell => .ok (a.addCell payload t cell, cells ++ [(t.key, cell)])
    | none => (a.addMissing payload inst period t).map fun a => (a, cells)

/-- A row of the dataset. -/
def datasetRow (inst : ComparedInstitution) (period : ComparedPeriod) (cells : RowCells) :
    DatasetRow where
  rowId := uuidText inst.id ++ ":" ++ uuidText period.id
  institutionId := inst.id
  institutionName := inst.displayName
  reportingPeriodId := period.id
  periodLabel := period.label
  reportingBasis := payload.reporting_basis.val
  cells := cells

/-- The loop body of a period of an institution. -/
def addRow (a : Assembly) (pair : ComparedInstitution × ComparedPeriod) :
    Except ComparisonExc Assembly := do
  let (a, cells) ← targets.foldlM (addTarget payload cellAt pair.1 pair.2) (a, [])
  return if cells.isEmpty then a else
    { a with rows := a.rows ++ [datasetRow payload pair.1 pair.2 cells] }

/-- The loops. -/
def assemble (insts : List ComparedInstitution) (periods : List ComparedPeriod) :
    Except ComparisonExc Assembly :=
  (insts.flatMap fun inst => periods.map (Prod.mk inst)).foldlM (addRow payload cellAt targets) {}

/-! ## Order -/

/-- What rows are sorted by. -/
abbrev SortKey := ℚ ×ₗ String ×ₗ String

/-- `sort_measure_key`. -/
def sortMeasureKey (measures : List MeasureItem) : Option String :=
  (payload.sort_measure_code.filter (· ≠ "")).or (measures.head?.map (·.measureCode))

/-- The number in a sort key. -/
def sortValue (U : CharClass) (measures : List MeasureItem) (r : DatasetRow) :
    Except ComparisonExc ℚ :=
  match (sortMeasureKey payload measures).bind fun key => r.cells.lookup key with
  | some cell => do
    let val ← safeDecimal U cell.canonicalValue
    return if payload.sort_direction.val = "desc" then Decimal.defaultContext.round (-val) else val
  | none => .ok 0

/-- `_sort_key`. -/
def sortKey (U : CharClass) (measures : List MeasureItem) (r : DatasetRow) :
    Except ComparisonExc SortKey :=
  (sortValue payload U measures r).map fun val => toLex (val, toLex (r.institutionName, r.rowId))

/-- `all_dataset_rows.sort(key=_sort_key)`. -/
def sortRows (U : CharClass) (measures : List MeasureItem) (rows : List DatasetRow) :
    Except ComparisonExc (List DatasetRow) := do
  let keyed ← rows.mapM fun r => (sortKey payload U measures r).map fun key => (key, r)
  return (sortedBy (·.1) keyed).map (·.2)

/-- The first rows, of all or of each period. -/
def topN (rows : List DatasetRow) : List DatasetRow :=
  match payload.top_n with
  | none => rows
  | some n =>
    if payload.top_n_scope.val = "DATASET_ROWS_GLOBAL" then rows.take n.val.toNat
    else takePerGroup (·.reportingPeriodId) n.val.toNat (fun _ => 0) rows

/-- `PaginationDTO`. -/
structure Pagination where
  page : ℕ
  pageSize : ℕ
  totalRows : ℕ
  totalPages : ℕ
  hasNext : Bool
  hasPrevious : Bool
deriving DecidableEq

/-- `_make_pagination`; the quotient is a double. -/
def makePagination (totalRows page pageSize : ℕ) : Pagination :=
  let totalPages := max 1 ⌈Binary64.div totalRows pageSize⌉.toNat
  { page, pageSize, totalRows, totalPages
    hasNext := page < totalPages
    hasPrevious := 1 < page }

end ComparisonService

end FinanceIntelligence
