import FinanceIntelligence.Formulas
import FinanceIntelligence.EvidenceLineage

/-!
# The rows of calculations

Requests, attempts and calculations with their inputs, evidence and reconciliation, and the tables
that a calculation only reads. The constraints are those of the migrations: the primary keys, the
unique keys of requests, attempts and completed calculations, the references among these tables,
and the trigger that looks at the attempt of a calculation. Decimals are rounded to the places of
their columns when a row is inserted.
-/

namespace FinanceIntelligence

/-! ## What a calculation reads -/

/-- `formula_definitions`. -/
structure FormulaDefinition where
  formulaCode : String
  /-- `status = 'ACTIVE'` -/
  active : Bool := true
  formulaSpecChecksum : Option String
  implementationChecksum : String
  toleranceKind : CalculationService.ToleranceKind := .absolute
  toleranceValue : ℚ := 1 / 20
  toleranceUnit : String := "PERCENTAGE_POINTS"
  tolerancePolicyVersion : String := "1.0.0"

/-- The tables that other parts of the application write. -/
structure ReferenceTables where
  formulaDefinitions : List FormulaDefinition
  /-- `reporting_periods` -/
  periods : List PeriodRow
  /-- `financial_facts` and `document_versions`, with what a review writes -/
  reviewed : FactDb
  /-- `candidate_evidence`, with the ids of its rows -/
  evidence : List (Uuid × EvidenceRow)

/-! ## Rows -/

/-- `comparison_policy`. -/
inductive ComparisonPolicy where
  | previousPeriod
  | previousYearSamePeriod
  | explicitPeriod
  | other (text : String)
deriving DecidableEq, Repr

/-- `calculation_requests`. -/
structure CalculationRequest where
  id : Uuid
  organizationId : Uuid
  requestFingerprint : String
  formulaCode : String
  institutionId : Uuid
  reportingPeriodId : Uuid
  comparisonPeriodId : Option Uuid
  comparisonPolicy : ComparisonPolicy
  requestedByUserId : Uuid
deriving DecidableEq

/-- `status` of an attempt, as far as `run_calculation` sets it. -/
inductive CalculationAttemptStatus where
  | completed
  | failed
deriving DecidableEq, Repr

/-- `calculation_attempts`. -/
structure CalculationAttempt where
  id : Uuid
  organizationId : Uuid
  calculationRequestId : Uuid
  attemptNumber : ℕ
  executionIdempotencyHash : Option String
  status : CalculationAttemptStatus
  errorCode : Option String
  formulaSpecChecksum : Option String
  implementationChecksum : Option String
deriving DecidableEq

/-- `calculations`. Every row is `COMPLETED` (`chk_calculations_status_completed`). -/
structure Calculation where
  id : Uuid
  organizationId : Uuid
  calculationRequestId : Uuid
  calculationAttemptId : Uuid
  institutionId : Uuid
  reportingPeriodId : Uuid
  comparisonPeriodId : Option Uuid
  formulaCode : String
  resultValueUnrounded : ℚ
  resultValueDisplay : ℚ
  resultUnit : String
  resultScale : String
  resultCurrency : Option String
  valueRepresentation : String
  roundingPolicy : String
  /-- `idempotency_hash`, also called `execution_idempotency_hash` -/
  executionIdempotencyHash : String
  formulaSpecChecksum : String
  implementationChecksum : String
  annualizationFactor : ℚ
  attemptNumber : ℕ
  requestedByUserId : Uuid
deriving DecidableEq

/-- `calculation_inputs`. -/
structure CalculationInput where
  id : Uuid
  organizationId : Uuid
  calculationId : Uuid
  financialFactId : Uuid
  inputRole : InputRole
  metricCode : String
  normalizedValueSnapshot : ℚ
  currencySnapshot : String
  unitSnapshot : String
  scaleSnapshot : String
  reportingBasisSnapshot : ReportingBasis
  reportingPeriodIdSnapshot : Uuid
  /-- `fact_revision_metadata["candidate_id"]` -/
  candidateId : Uuid
  /-- `fact_revision_metadata["annualization_factor"]`, a text -/
  annualizationFactor : ℚ
deriving DecidableEq

/-- `calculation_evidences`. -/
structure CalculationEvidence where
  id : Uuid
  organizationId : Uuid
  calculationId : Uuid
  calculationInputId : Uuid
  financialFactId : Uuid
  candidateId : Uuid
  candidateEvidenceId : Uuid
  sourceDocumentId : Uuid
  sourceDocumentVersionId : Uuid
  pageNumber : Option ℤ
  sheetName : Option String
  cellCoordinate : Option String
  columnIndex : Option ℤ
  boundingBox : List (String × Json String PyFloat)

/-- `calculation_reconciliations`; the deprecated columns repeat others. -/
structure CalculationReconciliation where
  id : Uuid
  organizationId : Uuid
  calculationId : Uuid
  sourceReportedFactId : Uuid
  sourceReportedValue : ℚ
  systemDerivedValue : ℚ
  derivedUnroundedValue : ℚ
  difference : ℚ
  absoluteDifference : ℚ
  relativeDifference : Option ℚ
  appliedToleranceKind : CalculationService.ToleranceKind
  appliedToleranceValue : ℚ
  appliedToleranceUnit : String
  tolerancePolicyVersion : String
  reconciliationStatus : CalculationService.ReconciliationStatus
deriving DecidableEq

open Numeric (store)

/-- What the columns keep of a calculation. -/
def Calculation.stored (c : Calculation) : Option Calculation := do
  let unrounded ← store 38 10 c.resultValueUnrounded
  let display ← store 28 6 c.resultValueDisplay
  let factor ← store 28 6 c.annualizationFactor
  return { c with
    resultValueUnrounded := unrounded
    resultValueDisplay := display
    annualizationFactor := factor }

/-- What the columns keep of an input. -/
def CalculationInput.stored (i : CalculationInput) : Option CalculationInput := do
  let value ← store 28 6 i.normalizedValueSnapshot
  return { i with normalizedValueSnapshot := value }

/-- What the columns keep of a relative difference. -/
def storedRelative : Option ℚ → Option (Option ℚ)
  | none => some none
  | some q => (store 28 10 q).map some

/-- What the columns keep of a reconciliation. -/
def CalculationReconciliation.stored (r : CalculationReconciliation) :
    Option CalculationReconciliation := do
  let source ← store 28 6 r.sourceReportedValue
  let derived ← store 28 6 r.systemDerivedValue
  let unrounded ← store 38 10 r.derivedUnroundedValue
  let difference ← store 28 6 r.difference
  let absolute ← store 38 10 r.absoluteDifference
  let relative ← storedRelative r.relativeDifference
  let tolerance ← store 28 6 r.appliedToleranceValue
  return { r with
    sourceReportedValue := source
    systemDerivedValue := derived
    derivedUnroundedValue := unrounded
    difference := difference
    absoluteDifference := absolute
    relativeDifference := relative
    appliedToleranceValue := tolerance }

/-! ## The contents -/

/-- The contents: the tables of the calculations, and those that they read. -/
structure CalcDb where
  /-- the tables of the rest of the application -/
  tables : ReferenceTables
  /-- `calculation_requests`, in insertion order -/
  requests : List CalculationRequest
  /-- `calculation_attempts`, in insertion order -/
  attempts : List CalculationAttempt
  /-- `calculations`, in insertion order -/
  calculations : List Calculation
  /-- `calculation_inputs`, in insertion order -/
  inputs : List CalculationInput
  /-- `calculation_evidences`, in insertion order -/
  evidences : List CalculationEvidence
  /-- `calculation_reconciliations`, in insertion order -/
  reconciliations : List CalculationReconciliation

namespace CalcDb

variable (d : CalcDb)

/-- `financial_facts`. -/
def facts : List FinancialFact := d.tables.reviewed.facts

/-- The request of an organization with a fingerprint. -/
def request (organizationId : Uuid) (fingerprint : String) : Option CalculationRequest :=
  d.requests.find? fun r =>
    r.organizationId == organizationId && r.requestFingerprint == fingerprint

/-- The attempts of a request. -/
def attemptsOf (organizationId requestId : Uuid) : List CalculationAttempt :=
  d.attempts.filter fun a =>
    a.organizationId == organizationId && a.calculationRequestId == requestId

/-- `coalesce(max(attempt_number), 0)` of a request. -/
def maxAttemptNumber (organizationId requestId : Uuid) : ℕ :=
  ((d.attemptsOf organizationId requestId).map (·.attemptNumber)).foldl max 0

/-- The completed calculations of an organization with an execution hash. -/
def executed (organizationId : Uuid) (hash : String) : List Calculation :=
  d.calculations.filter fun c =>
    c.organizationId == organizationId && c.executionIdempotencyHash == hash

end CalcDb

/-! ## Statements -/

/-- The rows that are locked. A request is locked through its entry in the unique index, for which
an insertion waits too. -/
inductive CalcRow where
  | request (organizationId : Uuid) (fingerprint : String)
  | fact (id : Uuid)
deriving DecidableEq

/-- The writing statements: all of them insert a row. -/
inductive CalcStmt where
  | insertRequest (r : CalculationRequest)
  | insertAttempt (a : CalculationAttempt)
  | insertCalculation (c : Calculation)
  | insertInput (i : CalculationInput)
  | insertEvidence (e : CalculationEvidence)
  | insertReconciliation (r : CalculationReconciliation)

namespace CalcStmt

/-- The columns can hold the row. -/
def fits : CalcStmt → Bool
  | .insertCalculation c => c.stored.isSome
  | .insertInput i => i.stored.isSome
  | .insertReconciliation r => r.stored.isSome
  | .insertRequest _ | .insertAttempt _ | .insertEvidence _ => true

/-- The effect of a statement. -/
def apply : CalcStmt → CalcDb → CalcDb
  | .insertRequest r, d => { d with requests := d.requests ++ [r] }
  | .insertAttempt a, d => { d with attempts := d.attempts ++ [a] }
  | .insertCalculation c, d => { d with calculations := d.calculations ++ c.stored.toList }
  | .insertInput i, d => { d with inputs := d.inputs ++ i.stored.toList }
  | .insertEvidence e, d => { d with evidences := d.evidences ++ [e] }
  | .insertReconciliation r, d => { d with reconciliations := d.reconciliations ++ r.stored.toList }

/-- The row of a statement. -/
def target : CalcStmt → Option CalcRow
  | .insertRequest r => some (.request r.organizationId r.requestFingerprint)
  | .insertAttempt _ | .insertCalculation _ | .insertInput _ | .insertEvidence _
  | .insertReconciliation _ => none

/-- The attempt that the trigger `fn_verify_calculation_attempt_completed` accepts. -/
def verified (c : Calculation) (a : CalculationAttempt) : Bool :=
  a.id == c.calculationAttemptId && a.organizationId == c.organizationId &&
    a.status == .completed && a.executionIdempotencyHash == some c.executionIdempotencyHash

/-- The keys, the references, the columns and the trigger. -/
def check : CalcStmt → CalcDb → Bool
  | .insertRequest r, d => d.requests.all fun x => x.id != r.id &&
      !(x.organizationId == r.organizationId && x.requestFingerprint == r.requestFingerprint)
  | .insertAttempt a, d =>
    (d.attempts.all fun x => x.id != a.id &&
      !(x.organizationId == a.organizationId && x.calculationRequestId == a.calculationRequestId &&
        x.attemptNumber == a.attemptNumber)) &&
      d.requests.any fun x =>
        x.organizationId == a.organizationId && x.id == a.calculationRequestId
  | .insertCalculation c, d =>
    (fits (.insertCalculation c)) && d.attempts.any (verified c) &&
      (d.calculations.all fun x => x.id != c.id &&
        !(x.organizationId == c.organizationId &&
          (x.executionIdempotencyHash == c.executionIdempotencyHash ||
            x.calculationAttemptId == c.calculationAttemptId))) &&
      d.requests.any fun x =>
        x.organizationId == c.organizationId && x.id == c.calculationRequestId
  | .insertInput i, d =>
    (fits (.insertInput i)) && (d.inputs.all fun x => x.id != i.id) &&
      d.calculations.any fun x => x.organizationId == i.organizationId && x.id == i.calculationId
  | .insertEvidence e, d =>
    (d.evidences.all fun x => x.id != e.id) &&
      d.calculations.any fun x => x.organizationId == e.organizationId && x.id == e.calculationId
  | .insertReconciliation r, d =>
    (fits (.insertReconciliation r)) && (d.reconciliations.all fun x => x.id != r.id) &&
      d.calculations.any fun x => x.organizationId == r.organizationId && x.id == r.calculationId

end CalcStmt

/-- The schema of the calculation tables. -/
def calcSchema : Schema CalcRow CalcStmt CalcDb where
  apply := CalcStmt.apply
  target := CalcStmt.target
  check := CalcStmt.check

end FinanceIntelligence
