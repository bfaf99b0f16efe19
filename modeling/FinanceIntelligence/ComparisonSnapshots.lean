import FinanceIntelligence.ComparisonService
import Mathlib.Data.Finset.Empty

/-!
# Stored comparisons

The snapshots that `execute_comparison` stores, and `get_persisted_comparison`, which reads them
back through the same models and builds the response of another page.

A model forbids the fields that it does not declare. Writing and reading go through different
models, and what one of them writes the other need not take: this is settled in
`ComparisonReadBack`.
-/

namespace FinanceIntelligence

/-! ## Fields -/

section Fields

variable {J V D U α : Type}

/-- A field that has to be there. -/
def requiredField (name : String) (validate : J → Option V) (fields : List (String × J)) :
    Option V :=
  Field.read ⟨name, validate, none⟩ fields

/-- A field with a default. -/
def defaultField (name : String) (validate : J → Option V) (default : V)
    (fields : List (String × J)) : Option V :=
  Field.read ⟨name, validate, some default⟩ fields

/-- A field of type `list[…]`. -/
def LaxRules.list (item : Json String D → Option α) : Json String D → Option (List α)
  | .arr l => l.mapM item
  | _ => none

/-- A field of type `dict[str, …]`. -/
def LaxRules.dict (item : Json String D → Option α) : Json String D → Option (List (String × α))
  | .obj l => l.mapM fun entry => (item entry.2).map (Prod.mk entry.1)
  | _ => none

/-- An optional value. -/
def dumpOption (dump : α → Json String D) : Option α → Json String D
  | none => .null
  | some a => dump a

/-- A UUID. -/
def dumpUuid (id : Uuid) : Json String D := .str (uuidText id)

/-- A list. -/
def dumpList (dump : α → Json String D) (l : List α) : Json String D := .arr (l.map dump)

/-- A dictionary. -/
def dumpDict (dump : α → Json String D) (l : List (String × α)) : Json String D :=
  .obj (l.map fun entry => (entry.1, dump entry.2))

end Fields

/-- The origins of a value. -/
def valueOrigins : List ValueOrigin := [.sourceReported, .systemDerived]

/-- A field of type `Literal["SOURCE_REPORTED", "SYSTEM_DERIVED"]`. -/
def validateOrigin : SnapshotJson → Option ValueOrigin
  | .str s => valueOrigins.find? fun o => o.text == s
  | _ => none

variable (rules : LaxRules PyFloat Uuid)

/-! ## Rows -/

/-- `model_dump`. -/
def DatasetRowCell.dump (c : DatasetRowCell) : SnapshotJson :=
  .obj [("measure_code", .str c.measureCode),
    ("semantic_measure_code", .str c.semanticMeasureCode),
    ("canonical_value", .str c.canonicalValue),
    ("display_value", .str c.displayValue),
    ("value_origin", .str c.valueOrigin.text),
    ("fact_id", dumpOption dumpUuid c.factId),
    ("calculation_id", dumpOption dumpUuid c.calculationId),
    ("evidence_id", dumpOption dumpUuid c.evidenceId),
    ("reconciliation_status", dumpOption (fun s => .str s.val) c.reconciliationStatus),
    ("warning_flag", .bool c.warningFlag),
    ("warning_code", dumpOption .str c.warningCode)]

/-- `model_validate`. -/
def DatasetRowCell.modelValidate : SnapshotJson → Option DatasetRowCell
  | .obj fields =>
    if extraForbid ["measure_code", "semantic_measure_code", "canonical_value", "display_value",
        "value_origin", "fact_id", "calculation_id", "evidence_id", "reconciliation_status",
        "warning_flag", "warning_code"] fields then do
      let measureCode ← requiredField "measure_code" LaxRules.str fields
      let semanticMeasureCode ← requiredField "semantic_measure_code" LaxRules.str fields
      let canonicalValue ← requiredField "canonical_value" LaxRules.str fields
      let displayValue ← requiredField "display_value" LaxRules.str fields
      let valueOrigin ← requiredField "value_origin" validateOrigin fields
      let factId ← defaultField "fact_id" (LaxRules.nullable rules.uuid) none fields
      let calculationId ← defaultField "calculation_id" (LaxRules.nullable rules.uuid) none fields
      let evidenceId ← defaultField "evidence_id" (LaxRules.nullable rules.uuid) none fields
      let reconciliationStatus ← defaultField "reconciliation_status"
        (LaxRules.nullable (LaxRules.literal reconciliationStatuses)) none fields
      let warningFlag ← defaultField "warning_flag" rules.bool false fields
      let warningCode ← defaultField "warning_code" (LaxRules.nullable LaxRules.str) none fields
      pure {
        measureCode, semanticMeasureCode, canonicalValue, displayValue, valueOrigin, factId,
        calculationId, evidenceId, reconciliationStatus, warningFlag, warningCode }
    else none
  | _ => none

/-- `model_dump`. -/
def DatasetRow.dump (r : DatasetRow) : SnapshotJson :=
  .obj [("row_id", .str r.rowId),
    ("institution_id", dumpUuid r.institutionId),
    ("institution_name", .str r.institutionName),
    ("reporting_period_id", dumpUuid r.reportingPeriodId),
    ("period_label", .str r.periodLabel),
    ("reporting_basis", .str r.reportingBasis),
    ("cells", dumpDict DatasetRowCell.dump r.cells)]

/-- `model_validate`. -/
def DatasetRow.modelValidate : SnapshotJson → Option DatasetRow
  | .obj fields =>
    if extraForbid ["row_id", "institution_id", "institution_name", "reporting_period_id",
        "period_label", "reporting_basis", "cells"] fields then do
      let rowId ← requiredField "row_id" LaxRules.str fields
      let institutionId ← requiredField "institution_id" rules.uuid fields
      let institutionName ← requiredField "institution_name" LaxRules.str fields
      let reportingPeriodId ← requiredField "reporting_period_id" rules.uuid fields
      let periodLabel ← requiredField "period_label" LaxRules.str fields
      let reportingBasis ← requiredField "reporting_basis" LaxRules.str fields
      let cells ← requiredField "cells" (LaxRules.dict (DatasetRowCell.modelValidate rules)) fields
      pure {
        rowId, institutionId, institutionName, reportingPeriodId, periodLabel, reportingBasis,
        cells }
    else none
  | _ => none

/-! ## Measures, query and quality -/

/-- `model_dump`. -/
def MeasureItem.dump (m : MeasureItem) : SnapshotJson :=
  .obj [("measure_code", .str m.measureCode),
    ("semantic_measure_code", .str m.semanticMeasureCode),
    ("label", .str m.label),
    ("unit", .str m.unit),
    ("currency", dumpOption .str m.currency),
    ("scale", .str m.scale),
    ("value_origin", .str m.valueOrigin.text),
    ("formula_code", dumpOption .str m.formulaCode)]

/-- `model_validate`. -/
def MeasureItem.modelValidate : SnapshotJson → Option MeasureItem
  | .obj fields =>
    if extraForbid ["measure_code", "semantic_measure_code", "label", "unit", "currency", "scale",
        "value_origin", "formula_code"] fields then do
      let measureCode ← requiredField "measure_code" LaxRules.str fields
      let semanticMeasureCode ← requiredField "semantic_measure_code" LaxRules.str fields
      let label ← requiredField "label" LaxRules.str fields
      let unit ← requiredField "unit" LaxRules.str fields
      let currency ← defaultField "currency" (LaxRules.nullable LaxRules.str) none fields
      let scale ← requiredField "scale" LaxRules.str fields
      let valueOrigin ← requiredField "value_origin" validateOrigin fields
      let formulaCode ← defaultField "formula_code" (LaxRules.nullable LaxRules.str) none fields
      pure {
        measureCode, semanticMeasureCode, label, unit, currency, scale, valueOrigin, formulaCode }
    else none
  | _ => none

/-- `model_dump`. -/
def QuerySnapshot.dump (q : QuerySnapshot) : SnapshotJson :=
  .obj [("institution_ids", dumpList dumpUuid q.institutionIds),
    ("semantic_measures", dumpList (dumpDict .str) q.semanticMeasures),
    ("reporting_period_ids", dumpList dumpUuid q.reportingPeriodIds),
    ("reporting_basis", .str q.reportingBasis),
    ("currency", .str q.currency),
    ("display_scale", .str q.displayScale),
    ("value_source_policy", .str q.valueSourcePolicy),
    ("sort_measure_code", dumpOption .str q.sortMeasureCode),
    ("sort_origin", dumpOption .str q.sortOrigin),
    ("sort_direction", .str q.sortDirection),
    ("top_n_scope", .str q.topNScope),
    ("comparison_mode", .str q.comparisonMode),
    ("common_period_policy", .str q.commonPeriodPolicy),
    ("evidence_policy", .str q.evidencePolicy),
    ("top_n", dumpOption .int q.topN),
    ("page", .int q.page),
    ("page_size", .int q.pageSize)]

/-- `model_validate`. -/
def QuerySnapshot.modelValidate : SnapshotJson → Option QuerySnapshot
  | .obj fields =>
    if extraForbid ["institution_ids", "semantic_measures", "reporting_period_ids",
        "reporting_basis", "currency", "display_scale", "value_source_policy",
        "sort_measure_code", "sort_origin", "sort_direction", "top_n_scope", "comparison_mode",
        "common_period_policy", "evidence_policy", "top_n", "page", "page_size"] fields then do
      let institutionIds ← requiredField "institution_ids" (LaxRules.list rules.uuid) fields
      let semanticMeasures ← requiredField "semantic_measures"
        (LaxRules.list (LaxRules.dict LaxRules.str)) fields
      let reportingPeriodIds ← requiredField "reporting_period_ids" (LaxRules.list rules.uuid)
        fields
      let reportingBasis ← requiredField "reporting_basis" LaxRules.str fields
      let currency ← requiredField "currency" LaxRules.str fields
      let displayScale ← requiredField "display_scale" LaxRules.str fields
      let valueSourcePolicy ← requiredField "value_source_policy" LaxRules.str fields
      let sortMeasureCode ← defaultField "sort_measure_code" (LaxRules.nullable LaxRules.str) none
        fields
      let sortOrigin ← defaultField "sort_origin" (LaxRules.nullable LaxRules.str) none fields
      let sortDirection ← defaultField "sort_direction" LaxRules.str "desc" fields
      let topNScope ← defaultField "top_n_scope" LaxRules.str "INSTITUTIONS_PER_PERIOD" fields
      let comparisonMode ← defaultField "comparison_mode" LaxRules.str "CROSS_INSTITUTION" fields
      let commonPeriodPolicy ← defaultField "common_period_policy" LaxRules.str
        "ALLOW_PARTIAL_WITH_WARNINGS" fields
      let evidencePolicy ← defaultField "evidence_policy" LaxRules.str "PARTIAL" fields
      let topN ← defaultField "top_n" (LaxRules.nullable rules.int) none fields
      let page ← defaultField "page" rules.int 1 fields
      let pageSize ← defaultField "page_size" rules.int 20 fields
      pure {
        institutionIds, semanticMeasures, reportingPeriodIds, reportingBasis, currency,
        displayScale, valueSourcePolicy, sortMeasureCode, sortOrigin, sortDirection, topNScope,
        comparisonMode, commonPeriodPolicy, evidencePolicy, topN, page, pageSize }
    else none
  | _ => none

/-- `model_dump`. -/
def DataQualitySummary.dump (q : DataQualitySummary) : SnapshotJson :=
  .obj [("expected_cells", .int q.expectedCells),
    ("populated_cells", .int q.populatedCells),
    ("missing_source_cells", .int q.missingSourceCells),
    ("excluded_ineligible_cells", .int q.excludedIneligibleCells),
    ("excluded_mismatch_cells", .int q.excludedMismatchCells),
    ("warning_cells", .int q.warningCells),
    ("source_reported_count", .int q.sourceReportedCount),
    ("system_derived_count", .int q.systemDerivedCount),
    ("reconciliation_warning_count", .int q.reconciliationWarningCount),
    ("completeness_percentage", .str q.completenessPercentage)]

/-- `model_validate`, with `validate_data_quality_invariant`. -/
def DataQualitySummary.modelValidate : SnapshotJson → Option DataQualitySummary
  | .obj fields =>
    if extraForbid ["expected_cells", "populated_cells", "missing_source_cells",
        "excluded_ineligible_cells", "excluded_mismatch_cells", "warning_cells",
        "source_reported_count", "system_derived_count", "reconciliation_warning_count",
        "completeness_percentage"] fields then do
      let expectedCells ← requiredField "expected_cells" rules.int fields
      let populatedCells ← requiredField "populated_cells" rules.int fields
      let missingSourceCells ← requiredField "missing_source_cells" rules.int fields
      let excludedIneligibleCells ← requiredField "excluded_ineligible_cells" rules.int fields
      let excludedMismatchCells ← requiredField "excluded_mismatch_cells" rules.int fields
      let warningCells ← requiredField "warning_cells" rules.int fields
      let sourceReportedCount ← requiredField "source_reported_count" rules.int fields
      let systemDerivedCount ← requiredField "system_derived_count" rules.int fields
      let reconciliationWarningCount ← requiredField "reconciliation_warning_count" rules.int
        fields
      let completenessPercentage ← requiredField "completeness_percentage" LaxRules.str fields
      let summary : DataQualitySummary := {
        expectedCells, populatedCells, missingSourceCells, excludedIneligibleCells,
        excludedMismatchCells, warningCells, sourceReportedCount, systemDerivedCount,
        reconciliationWarningCount, completenessPercentage }
      if summary.expectedCells = summary.sumCells then some summary else none
    else none
  | _ => none

/-! ## Charts -/

/-- `model_dump`. -/
def ChartSeriesItem.dump (p : ChartSeriesItem) : SnapshotJson :=
  .obj [("x", .str p.x), ("y", .str p.y), ("display_value", .str p.displayValue),
    ("label", .str p.label),
    ("evidence_id", dumpOption dumpUuid p.evidenceId),
    ("warning_flag", .bool p.warningFlag),
    ("warning_code", dumpOption .str p.warningCode)]

/-- `model_validate`. -/
def ChartSeriesItem.modelValidate : SnapshotJson → Option ChartSeriesItem
  | .obj fields =>
    if extraForbid ["x", "y", "display_value", "label", "evidence_id", "warning_flag",
        "warning_code"] fields then do
      let x ← requiredField "x" LaxRules.str fields
      let y ← requiredField "y" LaxRules.str fields
      let displayValue ← requiredField "display_value" LaxRules.str fields
      let label ← requiredField "label" LaxRules.str fields
      let evidenceId ← defaultField "evidence_id" (LaxRules.nullable rules.uuid) none fields
      let warningFlag ← defaultField "warning_flag" rules.bool false fields
      let warningCode ← defaultField "warning_code" (LaxRules.nullable LaxRules.str) none fields
      pure { x, y, displayValue, label, evidenceId, warningFlag, warningCode }
    else none
  | _ => none

/-- `model_dump`. -/
def ChartSeries.dump (s : ChartSeries) : SnapshotJson :=
  .obj [("series_name", .str s.seriesName),
    ("semantic_measure_code", .str s.semanticMeasureCode),
    ("measure_code", .str s.measureCode),
    ("unit", .str s.unit),
    ("currency", dumpOption .str s.currency),
    ("data_points", dumpList ChartSeriesItem.dump s.dataPoints)]

/-- `model_validate`. -/
def ChartSeries.modelValidate : SnapshotJson → Option ChartSeries
  | .obj fields =>
    if extraForbid ["series_name", "semantic_measure_code", "measure_code", "unit", "currency",
        "data_points"] fields then do
      let seriesName ← requiredField "series_name" LaxRules.str fields
      let semanticMeasureCode ← requiredField "semantic_measure_code" LaxRules.str fields
      let measureCode ← requiredField "measure_code" LaxRules.str fields
      let unit ← requiredField "unit" LaxRules.str fields
      let currency ← defaultField "currency" (LaxRules.nullable LaxRules.str) none fields
      let dataPoints ← requiredField "data_points"
        (LaxRules.list (ChartSeriesItem.modelValidate rules)) fields
      pure { seriesName, semanticMeasureCode, measureCode, unit, currency, dataPoints }
    else none
  | _ => none

/-- `model_dump`. -/
def ChartSpec.dump (c : ChartSpec) : SnapshotJson :=
  .obj [("result_dataset_id", dumpUuid c.resultDatasetId),
    ("chart_type", .str c.chartType.val),
    ("title", .str c.title),
    ("subtitle", dumpOption .str c.subtitle),
    ("x_axis_label", .str c.xAxisLabel),
    ("y_axis_label", .str c.yAxisLabel),
    ("unit", .str c.unit),
    ("currency", dumpOption .str c.currency),
    ("series", dumpList ChartSeries.dump c.series),
    ("warning_annotations", dumpList .str c.warningAnnotations)]

/-- `model_validate`. -/
def ChartSpec.modelValidate : SnapshotJson → Option ChartSpec
  | .obj fields =>
    if extraForbid ["result_dataset_id", "chart_type", "title", "subtitle", "x_axis_label",
        "y_axis_label", "unit", "currency", "series", "warning_annotations"] fields then do
      let resultDatasetId ← requiredField "result_dataset_id" rules.uuid fields
      let chartType ← requiredField "chart_type" (LaxRules.literal chartTypeNames) fields
      let title ← requiredField "title" LaxRules.str fields
      let subtitle ← defaultField "subtitle" (LaxRules.nullable LaxRules.str) none fields
      let xAxisLabel ← requiredField "x_axis_label" LaxRules.str fields
      let yAxisLabel ← requiredField "y_axis_label" LaxRules.str fields
      let unit ← requiredField "unit" LaxRules.str fields
      let currency ← defaultField "currency" (LaxRules.nullable LaxRules.str) none fields
      let series ← requiredField "series" (LaxRules.list (ChartSeries.modelValidate rules)) fields
      let warningAnnotations ← defaultField "warning_annotations" (LaxRules.list LaxRules.str) []
        fields
      pure {
        resultDatasetId, chartType, title, subtitle, xAxisLabel, yAxisLabel, unit, currency,
        series, warningAnnotations }
    else none
  | _ => none

/-! ## The table -/

/-- `model_validate`. -/
def TableCell.modelValidate : SnapshotJson → Option TableCell
  | .obj fields =>
    if extraForbid ["raw_value", "display_text", "value_origin", "reconciliation_status",
        "warning_flag", "warning_code", "evidence_id"] fields then do
      let rawValue ← requiredField "raw_value" LaxRules.str fields
      let displayText ← requiredField "display_text" LaxRules.str fields
      let valueOrigin ← requiredField "value_origin" validateOrigin fields
      let reconciliationStatus ← defaultField "reconciliation_status"
        (LaxRules.nullable LaxRules.str) none fields
      let warningFlag ← defaultField "warning_flag" rules.bool false fields
      let warningCode ← defaultField "warning_code" (LaxRules.nullable LaxRules.str) none fields
      let evidenceId ← defaultField "evidence_id" (LaxRules.nullable rules.uuid) none fields
      pure {
        rawValue, displayText, valueOrigin, reconciliationStatus, warningFlag, warningCode,
        evidenceId }
    else none
  | _ => none

/-- `model_validate`. -/
def TableRow.modelValidate : SnapshotJson → Option TableRow
  | .obj fields =>
    if extraForbid ["row_id", "institution_name", "period_label", "cells"] fields then do
      let rowId ← requiredField "row_id" LaxRules.str fields
      let institutionName ← requiredField "institution_name" LaxRules.str fields
      let periodLabel ← requiredField "period_label" LaxRules.str fields
      let cells ← requiredField "cells" (LaxRules.dict (TableCell.modelValidate rules)) fields
      pure { rowId, institutionName, periodLabel, cells }
    else none
  | _ => none

/-! ## Storing and reading -/

/-- The tables with the comparisons that were run. -/
structure ComparisonStore where
  /-- what comparisons read -/
  db : ComparisonDb
  /-- `comparison_runs`: `id`, with the organization -/
  runs : List (Uuid × Uuid)
  /-- `result_datasets` -/
  datasets : List ResultDatasetRecord
  /-- `fk_result_datasets_comparison_run` -/
  datasets_run : ∀ x ∈ datasets, x.comparisonRunId ∈ runs.map (·.1)

/-- Nothing is stored before the first run. -/
theorem forall_not_stored : ∀ x ∈ ([] : List ResultDatasetRecord),
    x.comparisonRunId ∈ ([] : List (Uuid × Uuid)).map (·.1) :=
  fun _ h => absurd h List.not_mem_nil

/-- The store with a run and its dataset. -/
def ComparisonStore.add (s : ComparisonStore) (record : ResultDatasetRecord) : ComparisonStore where
  db := s.db
  runs := s.runs ++ [(record.comparisonRunId, record.organizationId)]
  datasets := s.datasets ++ [record]
  datasets_run x hx := by
    rw [List.map_append, List.mem_append]
    rcases List.mem_append.mp hx with hx | hx
    · exact .inl (s.datasets_run x hx)
    · rw [List.mem_singleton.mp hx]
      exact .inr (List.mem_singleton_self _)

namespace ComparisonService

variable (cfg : ComparisonConfig) (organizationId : Uuid) (payload : ComparisonRequestDTO Uuid)

/-- `ds_model_obj`. -/
def datasetRecord (response : ComparisonResponse) (allRows : List DatasetRow) :
    ResultDatasetRecord where
  id := response.resultDataset.resultDatasetId
  organizationId := organizationId
  comparisonRunId := response.comparisonId
  schemaVersion := "3.0.0"
  querySnapshot := response.resultDataset.querySnapshot.dump
  dimensionsSnapshot := response.resultDataset.dimensions
  measuresSnapshot := response.resultDataset.measures.map (·.dump)
  rowsSnapshot := allRows.map (·.dump)
  chartSpecsSnapshot := response.chartSpecs.map (·.dump)
  dataQualitySummary := response.resultDataset.dataQualitySummary.dump
  warningsSnapshot := response.resultDataset.warnings
  createdAt := response.resultDataset.generatedAt

/-- `execute_comparison`: the response and the store with the snapshot. -/
def executeComparison (order : RowOrder) (stamp : RunStamp) (s : ComparisonStore) :
    Except ComparisonExc (ComparisonResponse × ComparisonStore) := do
  let c ← compute cfg s.db organizationId payload order
  let response := respond payload stamp c.assembly c.quality c.rows
  if stamp.runId ∈ s.runs.map (·.1) ∨ stamp.datasetId ∈ s.datasets.map (·.id) then
    .error .integrity
  else return (response, s.add (datasetRecord organizationId response c.rows))

/-- What `get_persisted_comparison` raises. -/
inductive ReadExc where
  | comparisonNotFound
  | multipleResultsFound
  | datasetSchemaVersionUnsupported
  /-- `ValidationError` -/
  | validation
deriving DecidableEq

/-- What a model makes of its data. -/
def validated {α : Type} : Option α → Except ReadExc α
  | some a => .ok a
  | none => .error .validation

/-- A row of `table_spec_rows`. The cells are those of the dataset as they are. -/
def tableSpecRow (r : DatasetRow) : SnapshotJson :=
  .obj [("row_id", .str r.rowId), ("institution_name", .str r.institutionName),
    ("period_label", .str r.periodLabel), ("cells", dumpDict DatasetRowCell.dump r.cells)]

/-- The dataset of a comparison. -/
def findDataset (s : ComparisonStore) (comparisonId : Uuid) : Except ReadExc ResultDatasetRecord :=
  match s.datasets.filter fun x =>
    x.comparisonRunId == comparisonId && x.organizationId == organizationId with
  | [] => .error .comparisonNotFound
  | [x] => .ok x
  | _ :: _ :: _ => .error .multipleResultsFound

/-- `get_persisted_comparison`. -/
def getPersistedComparison (s : ComparisonStore) (comparisonId : Uuid) (page : BoundedInt 1 none)
    (pageSize : BoundedInt 1 (some 100)) : Except ReadExc ComparisonResponse := do
  let x ← findDataset organizationId s comparisonId
  if x.schemaVersion ∉ ["1.0.0", "2.0.0", "3.0.0"] then .error .datasetSchemaVersionUnsupported
  else
    let querySnapshot ← validated (QuerySnapshot.modelValidate rules x.querySnapshot)
    let quality ← validated (DataQualitySummary.modelValidate rules x.dataQualitySummary)
    let measures ← validated (x.measuresSnapshot.mapM MeasureItem.modelValidate)
    let allRows ← validated (x.rowsSnapshot.mapM (DatasetRow.modelValidate rules))
    let rows := pageOf page.val.toNat pageSize.val.toNat allRows
    let pagination := makePagination allRows.length page.val.toNat pageSize.val.toNat
    let tableRows ← validated ((rows.map tableSpecRow).mapM (TableRow.modelValidate rules))
    let charts ← validated (x.chartSpecsSnapshot.mapM (ChartSpec.modelValidate rules))
    return {
      comparisonId := x.comparisonRunId
      resultDataset :=
        { resultDatasetId := x.id
          schemaVersion := x.schemaVersion
          generatedAt := x.createdAt
          querySnapshot
          valueSourcePolicy := querySnapshot.valueSourcePolicy
          dimensions := x.dimensionsSnapshot
          measures
          rows
          dataQualitySummary := quality
          warnings := x.warningsSnapshot
          evidenceReferences := ∅
          calculationReferences := ∅
          pagination }
      tableSpec :=
        { resultDatasetId := x.id
          schemaVersion := x.schemaVersion
          columns := tableColumns measures
          rows := tableRows
          pagination }
      chartSpecs := charts }

end ComparisonService

end FinanceIntelligence
