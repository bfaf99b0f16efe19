import FinanceIntelligence.CalculationRun
import FinanceIntelligence.CandidateCurrency
import FinanceIntelligence.ComparisonResponse

/-!
# Running a comparison

`ComparisonService.execute_comparison`: the facts and the calculations that a request is about, the
dataset that is made of them, and the snapshot that is stored. The database returns the rows of a
query without `ORDER BY` in an order of its own, which is an argument here.

* `Comparison` — what has been computed, before it is shown: the later modules prove their results
  about it.
-/

namespace FinanceIntelligence

/-! ## Contents -/

/-- `result_datasets`, without the snapshot of the table, which nothing reads. -/
structure ResultDatasetRecord where
  id : Uuid
  organizationId : Uuid
  comparisonRunId : Uuid
  schemaVersion : String
  querySnapshot : SnapshotJson
  dimensionsSnapshot : List (String × SnapshotJson)
  measuresSnapshot : List SnapshotJson
  rowsSnapshot : List SnapshotJson
  chartSpecsSnapshot : List SnapshotJson
  dataQualitySummary : SnapshotJson
  warningsSnapshot : List (List (String × SnapshotJson))
  createdAt : ℕ

/-- The tables that a comparison reads: those of the calculations, with the columns that
calculations do not read. -/
structure ComparisonDb where
  /-- the calculations and what they are made of -/
  tables : CalcDb
  institutions : List ComparedInstitution
  /-- `reporting_periods.label` -/
  periodLabel : Uuid → String
  /-- `candidate_evidence.created_at` -/
  evidenceCreatedAt : Uuid → ℕ

/-- `reporting_periods`. -/
def ComparisonDb.periods (d : ComparisonDb) : List ComparedPeriod :=
  d.tables.tables.periods.map fun p =>
    { id := p.id
      organizationId := p.organizationId
      startDate := p.startDate
      endDate := p.endDate
      periodType := p.periodType
      label := d.periodLabel p.id }

/-- The orders in which the database returns the rows of the two queries. -/
structure RowOrder where
  /-- the order of the facts -/
  facts : List FinancialFact → List FinancialFact
  /-- it is one -/
  facts_perm : ∀ l, (facts l).Perm l
  /-- the order of the calculations -/
  calculations : List (Calculation × CalculationAttempt) → List (Calculation × CalculationAttempt)
  /-- it is one -/
  calculations_perm : ∀ l, (calculations l).Perm l

/-- Facts as they are stored. -/
theorem RowOrder.facts_stored (l : List FinancialFact) : (id l).Perm l := List.Perm.refl l

/-- Calculations as they are stored. -/
theorem RowOrder.calculations_stored (l : List (Calculation × CalculationAttempt)) :
    (id l).Perm l :=
  List.Perm.refl l

/-- The order of insertion. -/
def RowOrder.inserted : RowOrder := ⟨id, RowOrder.facts_stored, id, RowOrder.calculations_stored⟩

/-- The digests, the classes of characters and `str.lower`. -/
structure ComparisonConfig where
  /-- what calculations use -/
  digests : CalcConfig
  /-- `str.lower` -/
  lower : String → String

/-- What a step keeps of the rows it looks at, or what it raises. -/
def keepRows {α β : Type} (f : α → Except ComparisonExc (Option β)) :
    List α → Except ComparisonExc (List β)
  | [] => .ok []
  | a :: l => do
    let kept ← f a
    let rest ← keepRows f l
    return kept.toList ++ rest

namespace ComparisonService

variable (cfg : ComparisonConfig) (d : ComparisonDb) (organizationId : Uuid)
  (payload : ComparisonRequestDTO Uuid)

/-- The text of a basis. -/
def basisText : ReportingBasis → String
  | .solo => "SOLO"
  | .consolidated => "CONSOLIDATED"

/-! ## Institutions and periods -/

/-- `institutions`, without a row for each id of the request. -/
def foundInstitutions : List ComparedInstitution :=
  d.institutions.filter fun inst =>
    payload.institution_ids.val.contains inst.id && inst.organizationId == organizationId

/-- `periods`. -/
def foundPeriods : List ComparedPeriod :=
  d.periods.filter fun p =>
    payload.reporting_period_ids.val.contains p.id && p.organizationId == organizationId

/-- `sorted_inst_ids`, with their rows. -/
def sortedInstitutions : List ComparedInstitution :=
  sortedBy (fun inst => toLex (inst.displayName, uuidText inst.id))
    (payload.institution_ids.val.filterMap fun id =>
      (foundInstitutions d organizationId payload).find? (·.id == id))

/-- `sorted_period_ids`, with their rows. -/
def sortedPeriods : List ComparedPeriod :=
  sortedBy (fun p => toLex (p.startDate, toLex (p.endDate, toLex (p.periodType, uuidText p.id))))
    (payload.reporting_period_ids.val.filterMap fun id =>
      (foundPeriods d organizationId payload).find? (·.id == id))

/-! ## Reported figures -/

/-- The query of the facts. -/
def factRows (metrics : List String) : List FinancialFact :=
  d.tables.facts.filter fun f =>
    f.organizationId == organizationId && payload.institution_ids.val.contains f.institutionId &&
      payload.reporting_period_ids.val.contains f.reportingPeriodId &&
      metrics.contains f.metricCode && f.isActive && f.reviewStatus == .humanVerified &&
      f.valueOrigin == .sourceReported && basisText f.reportingBasis == payload.reporting_basis.val

/-- The place of an index in an ascending order, which puts what is missing last. -/
def nullsLast (n : Option ℤ) : WithTop ℤ := n

/-- The evidence of a fact with its document, in the order of the query. -/
def evidenceOf (f : FinancialFact) : List ((Uuid × EvidenceRow) × DocumentVersion) :=
  let rows := d.tables.tables.evidence.filter fun ev =>
    ev.2.organizationId == organizationId && ev.2.candidateId == f.sourceCandidateId
  -- row level security hides the documents of others
  let joined := rows.flatMap fun ev =>
    (d.tables.tables.reviewed.documentVersions.filter fun v =>
      v.id == ev.2.sourceDocumentVersionId && v.organizationId == organizationId).map (Prod.mk ev)
  sortedBy (fun row => toLex (nullsLast row.1.2.pageNumber, toLex (nullsLast row.1.2.rowIndex,
    toLex (nullsLast row.1.2.columnIndex, toLex (d.evidenceCreatedAt row.1.1, row.1.1.toNat)))))
    joined

/-- The loop body of the facts: the fact with its evidence, unless it has none. -/
def usableFact (f : FinancialFact) : Except ComparisonExc (Option MatchedFact) :=
  let strict := payload.evidence_policy.val = "STRICT"
  if currencyMismatch f payload.currency.toList then .error (.value "CURRENCY_MISMATCH")
  else
    let rows := evidenceOf d organizationId f
    if rows.isEmpty then
      if strict then .error (.value "EVIDENCE_INCOMPLETE") else .ok none
    else
      match rows.find? fun row => validateEvidenceCoordinates cfg.lower row.1.2 (some row.2) with
      | some row => .ok (some (f, row.1.1))
      | none =>
        if strict then .error (.value "EVIDENCE_FORMAT_COORDINATES_INVALID") else .ok none

/-! ## Derived figures -/

/-- The query of the calculations. -/
def calculationRows (formulas : List String) : List (Calculation × CalculationAttempt) :=
  d.tables.calculations.flatMap fun c =>
    (d.tables.attempts.filter fun a => a.id == c.calculationAttemptId && a.status == .completed &&
      c.organizationId == organizationId && payload.institution_ids.val.contains c.institutionId &&
      payload.reporting_period_ids.val.contains c.reportingPeriodId &&
      formulas.contains c.formulaCode).map (Prod.mk c)

/-- The checksums of the calculation are those of its formula. -/
def checksumsVerified (c : Calculation) : Bool :=
  match Formula.registry.find? fun f => f.code == c.formulaCode with
  | none => false
  | some f =>
    (CalculationService.verifyChecksum cfg.digests f (some c.formulaSpecChecksum)
      c.implementationChecksum).isOk

/-- The loop body of the calculations: the calculation with its reconciliation, unless it lacks
something. -/
def usableCalculation (row : Calculation × CalculationAttempt) :
    Except ComparisonExc (Option MatchedCalc) :=
  let (c, attempt) := row
  if c.organizationId ≠ attempt.organizationId then .ok none
  else if some c.executionIdempotencyHash ≠ attempt.executionIdempotencyHash then .ok none
  else if c.resultUnit = "" ∨ c.resultScale = "" then .ok none
  else if !checksumsVerified cfg c then .ok none
  else if !d.tables.inputs.any fun i =>
      i.calculationId == c.id && i.organizationId == organizationId then .ok none
  else if !d.tables.evidences.any fun e =>
      e.calculationId == c.id && e.organizationId == organizationId then .ok none
  else
    match d.tables.reconciliations.filter fun r =>
      r.calculationId == c.id && r.organizationId == organizationId with
    | [] => .ok (some (c, none))
    | [r] => .ok (some (c, some r))
    | _ :: _ :: _ => .error .multipleResultsFound

/-! ## Cells -/

/-- What the two loops have kept. -/
structure MatchedRows where
  /-- the facts, with their evidence -/
  facts : List MatchedFact
  /-- the calculations, with their reconciliations -/
  calculations : List MatchedCalc

/-- `facts_by_key.get`: the last fact that was put under the key. -/
def MatchedRows.fact (m : MatchedRows) (inst period : Uuid) (metric : Option String) :
    Option MatchedFact :=
  metric.bind fun code => (m.facts.filter fun x =>
    x.1.institutionId == inst && x.1.reportingPeriodId == period && x.1.metricCode == code).getLast?

/-- `calcs_by_key.get`. -/
def MatchedRows.calculation (m : MatchedRows) (inst period : Uuid) (formula : Option String) :
    Option MatchedCalc :=
  formula.bind fun code => (m.calculations.filter fun x =>
    x.1.institutionId == inst && x.1.reportingPeriodId == period &&
      x.1.formulaCode == code).getLast?

/-- The cell of an institution, a period and a measure. -/
def MatchedRows.cellAt (m : MatchedRows) (scaleDiv : ℚ) : CellSource := fun inst period t =>
  (selectValue (policyOf payload) t.defaultOrigin
    (m.fact inst period t.definition.reportedMetricCode)
    (m.calculation inst period t.definition.derivedFormulaCode)).map (cellOf payload scaleDiv t)

/-- The facts and the calculations that are found. -/
def matchRows (order : RowOrder) (defs : List SemanticMeasureDefinition) :
    Except ComparisonExc MatchedRows := do
  let policy := policyOf payload
  let facts ← keepRows (usableFact cfg d organizationId payload)
    (order.facts (factRows d organizationId payload (neededReportedMetrics policy defs)))
  let calculations ← keepRows (usableCalculation cfg d organizationId)
    (order.calculations (calculationRows d organizationId payload
      (neededDerivedFormulas policy defs)))
  return ⟨facts, calculations⟩

/-! ## The comparison -/

/-- The thresholds, which the request type keeps. -/
def limitExceeded : Bool :=
  10 < payload.institution_ids.val.length || 15 < payload.semantic_measures.val.length ||
    20 < payload.reporting_period_ids.val.length || payload.top_n.any (50 < ·.val)

/-- The measures, the institutions and the periods of a request that is accepted so far. -/
def resolveRequest : Except ComparisonExc (List SemanticMeasureDefinition) := do
  if limitExceeded payload then .error (.value "COMPARISON_LIMIT_EXCEEDED")
  else
    let defs ← semanticDefs payload.semantic_measures.val
    if ((foundInstitutions d organizationId payload).map (·.id)).dedup.length ≠
        payload.institution_ids.val.length then
      .error (.value "INSTITUTION_NOT_FOUND")
    else if ((foundPeriods d organizationId payload).map (·.id)).dedup.length ≠
        payload.reporting_period_ids.val.length then
      .error (.value "PERIOD_NOT_FOUND")
    else return defs

/-- `expected_cells`. -/
def expectedCells (targets : List TargetMeasure) : ℕ :=
  payload.institution_ids.val.length * payload.reporting_period_ids.val.length * targets.length

/-- Everything that a comparison computes. -/
structure Comparison where
  /-- `target_measures` -/
  targets : List TargetMeasure
  /-- where the cells come from -/
  cellAt : CellSource
  /-- what the loops collect, with all rows -/
  assembly : Assembly
  /-- `data_quality` -/
  quality : DataQualitySummary
  /-- `all_dataset_rows`, sorted and cut -/
  rows : List DatasetRow

/-- The computation of `execute_comparison`. -/
def compute (order : RowOrder) : Except ComparisonExc Comparison := do
  let defs ← resolveRequest d organizationId payload
  let found ← matchRows cfg d organizationId payload order defs
  let scaleDiv ← scaleDivisor payload.display_scale.val
  let targets := targetMeasures (policyOf payload) defs
  let cellAt := found.cellAt payload scaleDiv
  let assembly ← assemble payload cellAt targets (sortedInstitutions d organizationId payload)
    (sortedPeriods d organizationId payload)
  let sorted ← sortRows payload cfg.digests.chars assembly.measures assembly.rows
  let quality ← dataQuality (expectedCells payload targets) assembly
  return ⟨targets, cellAt, assembly, quality, topN payload sorted⟩

end ComparisonService

end FinanceIntelligence
