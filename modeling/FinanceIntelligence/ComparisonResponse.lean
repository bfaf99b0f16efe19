import FinanceIntelligence.ComparisonDataset
import FinanceIntelligence.PyFloat

/-!
# The response of a comparison

The dataset with the page that is shown, the table and the charts of that page, and the summary of
the data quality: the second half of `execute_comparison`.

The response of a stored comparison is built by the same functions (`ComparisonSnapshots`).
-/

namespace FinanceIntelligence

/-- JSON data of a stored comparison. -/
abbrev SnapshotJson := WireJson PyFloat

/-- `QuerySnapshotDTO`. -/
structure QuerySnapshot where
  institutionIds : List Uuid
  semanticMeasures : List (List (String × String))
  reportingPeriodIds : List Uuid
  reportingBasis : String
  currency : String
  displayScale : String
  valueSourcePolicy : String
  sortMeasureCode : Option String
  sortOrigin : Option String
  sortDirection : String
  topNScope : String
  comparisonMode : String
  commonPeriodPolicy : String
  evidencePolicy : String
  topN : Option ℤ
  page : ℤ
  pageSize : ℤ
deriving DecidableEq

/-- `DataQualitySummaryDTO`. -/
structure DataQualitySummary where
  expectedCells : ℤ
  populatedCells : ℤ
  missingSourceCells : ℤ
  excludedIneligibleCells : ℤ
  excludedMismatchCells : ℤ
  warningCells : ℤ
  sourceReportedCount : ℤ
  systemDerivedCount : ℤ
  reconciliationWarningCount : ℤ
  completenessPercentage : String
deriving DecidableEq

/-- What is counted: the cells of `validate_data_quality_invariant`. -/
def DataQualitySummary.sumCells (q : DataQualitySummary) : ℤ :=
  q.populatedCells + q.missingSourceCells + q.excludedIneligibleCells + q.excludedMismatchCells

/-- `ResultDatasetDTO`. The references come out of sets, in no order. -/
structure ResultDataset where
  resultDatasetId : Uuid
  schemaVersion : String
  generatedAt : ℕ
  querySnapshot : QuerySnapshot
  valueSourcePolicy : String
  dimensions : List (String × SnapshotJson)
  measures : List MeasureItem
  rows : List DatasetRow
  dataQualitySummary : DataQualitySummary
  warnings : List (List (String × SnapshotJson))
  evidenceReferences : Finset Uuid
  calculationReferences : Finset Uuid
  pagination : ComparisonService.Pagination

/-- `TableColumnDTO`. -/
structure TableColumn where
  key : String
  title : String
  dataType : String
  alignment : String
  unitLabel : String
deriving DecidableEq

/-- `TableCellDTO`. -/
structure TableCell where
  rawValue : String
  displayText : String
  valueOrigin : ValueOrigin
  reconciliationStatus : Option String
  warningFlag : Bool
  warningCode : Option String
  evidenceId : Option Uuid
deriving DecidableEq

/-- `TableRowDTO`. -/
structure TableRow where
  rowId : String
  institutionName : String
  periodLabel : String
  cells : List (String × TableCell)
deriving DecidableEq

/-- `TableSpecDTO`. -/
structure TableSpec where
  resultDatasetId : Uuid
  schemaVersion : String
  columns : List TableColumn
  rows : List TableRow
  pagination : ComparisonService.Pagination

/-- `ChartSeriesItemDTO`. -/
structure ChartSeriesItem where
  x : String
  y : String
  displayValue : String
  label : String
  evidenceId : Option Uuid
  warningFlag : Bool
  warningCode : Option String
deriving DecidableEq

/-- `ChartSeriesDTO`. -/
structure ChartSeries where
  seriesName : String
  semanticMeasureCode : String
  measureCode : String
  unit : String
  currency : Option String
  dataPoints : List ChartSeriesItem
deriving DecidableEq

/-- `ChartSpecDTO`. -/
structure ChartSpec where
  resultDatasetId : Uuid
  chartType : Literal chartTypeNames
  title : String
  subtitle : Option String
  xAxisLabel : String
  yAxisLabel : String
  unit : String
  currency : Option String
  series : List ChartSeries
  warningAnnotations : List String
deriving DecidableEq

/-- `ComparisonResponseDTO`. -/
structure ComparisonResponse where
  comparisonId : Uuid
  resultDataset : ResultDataset
  tableSpec : TableSpec
  chartSpecs : List ChartSpec

namespace ComparisonService

/-! ## Data quality -/

/-- `completeness_str`. -/
def completeness (populated expected : ℕ) : Except ComparisonExc String :=
  let c := Decimal.defaultContext
  if 0 < expected then
    match c.quantize 2 (c.mul (c.div populated expected) 100) with
    | .ok percentage => .ok (Decimal.str 2 percentage)
    | .error s => .error (.decimal s)
  else .ok "0.00"

/-- The summary, unless the cells do not add up. -/
def dataQuality (expected : ℕ) (a : Assembly) : Except ComparisonExc DataQualitySummary := do
  let sum := a.populatedCells + a.missingSourceCells + 0 + 0
  if expected ≠ sum then .error (.dataQualityInvariantViolated expected sum)
  else
    let completenessPercentage ← completeness a.populatedCells expected
    return {
      expectedCells := expected
      populatedCells := a.populatedCells
      missingSourceCells := a.missingSourceCells
      excludedIneligibleCells := 0
      excludedMismatchCells := 0
      warningCells := a.warningCells
      sourceReportedCount := a.srcReportedCount
      systemDerivedCount := a.sysDerivedCount
      reconciliationWarningCount := a.reconciliationWarningCount
      completenessPercentage }

/-! ## Table and charts -/

variable (payload : ComparisonRequestDTO Uuid)

/-- `query_snap`. -/
def querySnap : QuerySnapshot where
  institutionIds := payload.institution_ids.val
  semanticMeasures := payload.semantic_measures.val.map fun s =>
    [("code", s.semantic_measure_code), ("preferred_origin", s.preferred_origin.val)]
  reportingPeriodIds := payload.reporting_period_ids.val
  reportingBasis := payload.reporting_basis.val
  currency := payload.currency
  displayScale := payload.display_scale.val
  valueSourcePolicy := payload.value_source_policy.val
  sortMeasureCode := payload.sort_measure_code
  sortOrigin := payload.sort_origin.map (·.val)
  sortDirection := payload.sort_direction.val
  topNScope := payload.top_n_scope.val
  comparisonMode := payload.comparison_mode.val
  commonPeriodPolicy := payload.common_period_policy.val
  evidencePolicy := payload.evidence_policy.val
  topN := payload.top_n.map (·.val)
  page := payload.page.val
  pageSize := payload.page_size.val

/-- A warning as a dictionary. -/
def warningDict (w : DatasetWarning) : List (String × SnapshotJson) :=
  [("code", .str w.code), ("message", .str w.message), ("institution", .str w.institution),
    ("period", .str w.period), ("measure", .str w.measure)]

/-- `unit in ("PERCENT", "RATIO")`, of the text of a unit. -/
def isRelativeUnit (unit : String) : Bool := unit == "PERCENT" || unit == "RATIO"

/-- `table_cols`. -/
def tableColumns (measures : List MeasureItem) : List TableColumn :=
  let text (key title : String) : TableColumn := ⟨key, title, "string", "left", "Text"⟩
  text "institution_name" "Institution" :: text "period_label" "Period" ::
    measures.map fun m =>
      { key := m.measureCode
        title := m.label
        dataType := if isRelativeUnit m.unit then "percent" else "decimal"
        alignment := "right"
        unitLabel :=
          if isRelativeUnit m.unit then "%" else m.currency.getD "" ++ " (" ++ m.scale ++ ")" }

/-- A cell of the table. -/
def tableCell (cell : DatasetRowCell) : TableCell where
  rawValue := cell.canonicalValue
  displayText := cell.displayValue
  valueOrigin := cell.valueOrigin
  reconciliationStatus := cell.reconciliationStatus.map (·.val)
  warningFlag := cell.warningFlag
  warningCode := cell.warningCode
  evidenceId := cell.evidenceId

/-- A row of the table. -/
def tableRow (row : DatasetRow) : TableRow where
  rowId := row.rowId
  institutionName := row.institutionName
  periodLabel := row.periodLabel
  cells := row.cells.map fun entry => (entry.1, tableCell entry.2)

/-- `unit_groups`: the measures by unit, in the order of the first of each. -/
def unitGroups (measures : List MeasureItem) : List (String × List MeasureItem) :=
  (measures.map (·.unit)).eraseDups.map fun unit => (unit, measures.filter (·.unit == unit))

/-- The points of a measure. -/
def dataPoints (m : MeasureItem) (rows : List DatasetRow) : List ChartSeriesItem :=
  rows.filterMap fun row => (row.cells.lookup m.measureCode).map fun cell =>
    { x := row.institutionName ++ " (" ++ row.periodLabel ++ ")"
      y := cell.canonicalValue
      displayValue := cell.displayValue
      label := m.label
      evidenceId := cell.evidenceId
      warningFlag := cell.warningFlag
      warningCode := cell.warningCode }

/-- The series of a measure. -/
def chartSeries (rows : List DatasetRow) (m : MeasureItem) : ChartSeries where
  seriesName := m.label
  semanticMeasureCode := m.semanticMeasureCode
  measureCode := m.measureCode
  unit := m.unit
  currency := m.currency
  dataPoints := dataPoints m rows

/-- `chart_warnings`. -/
def chartWarnings (rows : List DatasetRow) (group : List MeasureItem) : List String :=
  group.flatMap fun m => (dataPoints m rows).filterMap fun point =>
    if point.warningFlag then point.warningCode.filter (· ≠ "") else none

/-- The chart of a type for the measures of a unit. -/
def chartSpec (datasetId : Uuid) (rows : List DatasetRow) (chartType : Literal chartTypeNames)
    (group : String × List MeasureItem) : ChartSpec where
  resultDatasetId := datasetId
  chartType := chartType
  title := String.intercalate ", " (group.2.map (·.label))
  subtitle := some ("Basis: " ++ payload.reporting_basis.val ++ " | Scale: " ++
    payload.display_scale.val)
  xAxisLabel := "Institution / Period"
  yAxisLabel := if isRelativeUnit group.1 then group.1 else payload.display_scale.val
  unit := group.1
  currency := if isRelativeUnit group.1 then none else some payload.currency
  series := group.2.map (chartSeries rows)
  warningAnnotations := (chartWarnings rows group.2).dedup

/-- `chart_specs`. -/
def chartSpecs (datasetId : Uuid) (measures : List MeasureItem) (rows : List DatasetRow) :
    List ChartSpec :=
  payload.chart_types.val.flatMap fun chartType =>
    (unitGroups measures).map (chartSpec payload datasetId rows chartType)

/-! ## Response -/

/-- What comes from outside: two identifiers and the time. -/
structure RunStamp where
  runId : Uuid
  datasetId : Uuid
  /-- `now_dt` -/
  now : ℕ

/-- The response that shows a page of the rows. -/
def respond (stamp : RunStamp) (a : Assembly) (quality : DataQualitySummary)
    (allRows : List DatasetRow) : ComparisonResponse :=
  let page := payload.page.val.toNat
  let pageSize := payload.page_size.val.toNat
  let paginatedRows := pageOf page pageSize allRows
  let pagination := makePagination allRows.length page pageSize
  { comparisonId := stamp.runId
    resultDataset :=
      { resultDatasetId := stamp.datasetId
        schemaVersion := "3.0.0"
        generatedAt := stamp.now
        querySnapshot := querySnap payload
        valueSourcePolicy := payload.value_source_policy.val
        dimensions :=
          [("institutions_count", .int payload.institution_ids.val.length),
            ("periods_count", .int payload.reporting_period_ids.val.length),
            ("measures_count", .int a.measures.length)]
        measures := a.measures
        rows := paginatedRows
        dataQualitySummary := quality
        warnings := a.warnings.map warningDict
        evidenceReferences := a.evidenceRefIds.toFinset
        calculationReferences := a.calcRefIds.toFinset
        pagination }
    tableSpec :=
      { resultDatasetId := stamp.datasetId
        schemaVersion := "3.0.0"
        columns := tableColumns a.measures
        rows := paginatedRows.map tableRow
        pagination }
    chartSpecs := chartSpecs payload stamp.datasetId a.measures paginatedRows }

end ComparisonService

end FinanceIntelligence
