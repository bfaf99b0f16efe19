import FinanceIntelligence.CalculationStore

/-!
# Running a calculation

`CalculationService.run_calculation`. A run selects the facts of its formula and locks them, names
the execution by a hash of them, and returns the calculation that has the hash already, or else
adds an attempt and a calculation. What it raises on the way is recorded as a failed attempt, in a
transaction of its own.
-/

namespace FinanceIntelligence

/-! ## Identities -/

/-- The arguments of `run_calculation`; nothing reads `explicit_fact_ids`. -/
structure RunArgs where
  organizationId : Uuid
  requestedByUserId : Uuid
  formulaCode : String
  institutionId : Uuid
  reportingPeriodId : Uuid
  comparisonPeriodId : Option Uuid := none
  comparisonPolicy : ComparisonPolicy := .previousPeriod

/-- The payload of `compute_request_fingerprint`. -/
structure RequestPayload where
  organizationId : Uuid
  formulaCode : String
  institutionId : Uuid
  reportingPeriodId : Uuid
  comparisonPeriodId : Option Uuid
  comparisonPolicy : ComparisonPolicy
deriving DecidableEq

/-- An entry of `inputs` in the payload of `compute_canonical_idempotency_hash`. -/
structure RoleSnapshot where
  role : InputRole
  factId : Uuid
  revisionId : Uuid
  normalizedValue : ℚ
  currency : String
  unit : String
  scale : String
  reportingBasis : ReportingBasis
deriving DecidableEq

/-- The payload of `compute_canonical_idempotency_hash`, without the versions, which are
constants. -/
structure ExecutionPayload where
  organizationId : Uuid
  formulaCode : String
  formulaSpecChecksum : String
  implementationChecksum : String
  reportingPeriodId : Uuid
  comparisonPeriodId : Option Uuid
  comparisonPolicy : ComparisonPolicy
  inputs : List RoleSnapshot
deriving DecidableEq

/-- The facts that an execution is about. -/
def ExecutionPayload.factIds (p : ExecutionPayload) : List Uuid := p.inputs.map (·.factId)

/-- The digests, and the classes of characters. -/
structure CalcConfig where
  /-- `sha256(json.dumps(payload, sort_keys=True)).hexdigest()` of a request -/
  requestFingerprint : RequestPayload → String
  /-- the same of an execution -/
  executionHash : ExecutionPayload → String
  /-- `compute_formula_spec_checksum` -/
  specChecksum : Formula → String
  /-- `compute_implementation_checksum` -/
  implementationChecksum : Formula → String
  /-- what `str.strip` takes for white space -/
  chars : CharClass

/-- Executions with one hash are about the same facts: what the code relies on SHA-256 for. It
follows from the absence of collisions (`hashTellsFacts_of_collisionFree`). -/
def CalcConfig.HashTellsFacts (cfg : CalcConfig) : Prop :=
  ∀ p q, cfg.executionHash p = cfg.executionHash q → p.factIds = q.factIds

/-- The place of a role in the alphabetical order of the texts. -/
def InputRole.rank : InputRole → ℕ
  | beginningBalance => 0
  | comparisonValue => 1
  | currentValue => 2
  | denominator => 3
  | endingBalance => 4
  | numerator => 5
  | periodIncome => 6

/-- The facts that were selected, by role. -/
abbrev FactObjects := List (InputRole × FinancialFact)

/-- `inputs_by_role.get`. -/
def FactObjects.input (facts : FactObjects) (role : InputRole) : Option FormulaInput :=
  (facts.find? fun p => p.1 == role).map fun p => p.2.toInput

/-- Put a fact at the place of its role. -/
def insertByRole (x : InputRole × FinancialFact) : FactObjects → FactObjects
  | [] => [x]
  | y :: l => if x.1.rank ≤ y.1.rank then x :: y :: l else y :: insertByRole x l

/-- The facts in the order of `sorted_roles`. -/
def FactObjects.sorted (facts : FactObjects) : FactObjects := facts.foldr insertByRole []

/-- The entry of a fact. -/
def roleSnapshot (x : InputRole × FinancialFact) : RoleSnapshot where
  role := x.1
  factId := x.2.id
  revisionId := x.2.sourceCandidateId
  normalizedValue := x.2.normalizedValue
  currency := x.2.currency
  unit := x.2.unit
  scale := x.2.scale
  reportingBasis := x.2.reportingBasis

/-! ## Programs -/

/-- An answer from outside the store. -/
structure CalcAnswer where
  /-- `uuid4()` -/
  uuid : Uuid := 0
  /-- the callee raised -/
  fails : Bool := false
  /-- the caller commits -/
  commits : Bool := false

/-- A program on the calculation tables. -/
abbrev CalcProg := Prog CalcRow CalcStmt CalcAnswer Empty CalcDb CalcExc

namespace CalcProg

/-- A callee outside the model, or the connection to the database, which may fail. -/
def attempt : CalcProg Unit := .ask fun i => if i.fails then .raise .outside else .ret ()

/-- `uuid4()`. -/
def uuid4 : CalcProg Uuid := .ask fun i => .ret i.uuid

/-- The value of a function, or what it raises. -/
def lift {α : Type} : Except CalcExc α → CalcProg α
  | .ok a => .ret a
  | .error x => .raise x

/-- A writing statement. What the columns cannot hold is no `IntegrityError`. -/
def execute (s : CalcStmt) : CalcProg Unit :=
  attempt.bind fun _ => Prog.write s fun ok =>
    if ok then .ret () else .raise (if s.fits then .integrity else .database)

/-- Statements one after the other. -/
def executeAll : List CalcStmt → CalcProg Unit
  | [] => .ret ()
  | s :: rest => (execute s).bind fun _ => executeAll rest

/-- Commit: it goes through, or raises without effect. -/
def commit : CalcProg Unit :=
  attempt.bind fun _ => Prog.commit fun failed =>
    match failed with
    | none => .ret ()
    | some _ => .raise .integrity

/-- Drop what is pending. -/
def rollback : CalcProg Unit := Prog.rollback (.ret ())

/-- `AuditService.record_event`: a row that nothing here reads. -/
def recordEvent : CalcProg Unit := attempt

/-- `set_config('app.current_organization_id', …)`. -/
def setTenant : CalcProg Unit := attempt

/-- `scalar_one_or_none()`. -/
def scalarOneOrNone {α : Type} : List α → CalcProg (Option α)
  | [] => .ret none
  | [a] => .ret (some a)
  | _ => .raise .multipleResultsFound

/-- A `SELECT`. -/
def select {α : Type} (q : CalcDb → α) : CalcProg α :=
  attempt.bind fun _ => .read fun d => .ret (q d)

/-- A `SELECT` of at most one row. -/
def selectOne {α : Type} (q : CalcDb → List α) : CalcProg (Option α) :=
  (select q).bind scalarOneOrNone

/-- `FOR UPDATE` of the facts that a query has found: it waits for the lock of each and looks at it
again. -/
def lockFacts (q : FinancialFact → Bool) : List Uuid → CalcProg (List FinancialFact)
  | [] => .ret []
  | id :: ids =>
    .lock (.fact id) (fun d => (d.tables.reviewed.fact id).any q) fun found =>
      if found then
        .read fun d =>
          (lockFacts q ids).bind fun rest => .ret ((d.tables.reviewed.fact id).toList ++ rest)
      else lockFacts q ids

/-- `SELECT … FOR UPDATE` of a fact. -/
def selectFact (q : FinancialFact → Bool) : CalcProg (Option FinancialFact) :=
  (select fun d => (d.facts.filter q).map (·.id)).bind fun ids =>
    (lockFacts q ids).bind scalarOneOrNone

/-- `SELECT … FOR UPDATE` of a request. -/
def lockRequest (organizationId : Uuid) (fingerprint : String) :
    CalcProg (Option CalculationRequest) :=
  attempt.bind fun _ =>
    .lock (.request organizationId fingerprint)
      (fun d => (d.request organizationId fingerprint).isSome)
      fun found =>
        if found then .read fun d => .ret (d.request organizationId fingerprint) else .ret none

end CalcProg

/-- What a run returns. -/
structure RunOutcome where
  calculation : Calculation
  inputs : List CalculationInput
  /-- its reconciliation, if there is a reported figure -/
  reconciliation : Option CalculationReconciliation

namespace CalculationService

open CalcProg

variable (cfg : CalcConfig)

/-! ## Formula and periods -/

/-- `is_valid_sha256_hex`. -/
def isValidSha256Hex (s : String) : Bool :=
  s.length == 64 && s.toList.all fun c => c ∈ "0123456789abcdef".toList

/-- `verify_checksum`. -/
def verifyChecksum (f : Formula) (spec : Option String) (implementation : String) :
    Except CalcExc (String × String) :=
  if !spec.any isValidSha256Hex || spec != some (cfg.specChecksum f) then
    .error (.value "FORMULA_VERSION_MISMATCH")
  else if !isValidSha256Hex implementation ||
      implementation != cfg.implementationChecksum f then
    .error (.value "FORMULA_VERSION_MISMATCH")
  else .ok (cfg.specChecksum f, cfg.implementationChecksum f)

/-- What the formula's definition gives to a run. -/
structure VerifiedFormula where
  formula : Formula
  /-- `formula_def` -/
  definition : FormulaDefinition
  /-- `code_spec_checksum` -/
  specChecksum : String
  /-- `code_impl_checksum` -/
  implementationChecksum : String

/-- Step 1: the formula, with both checksums. -/
def verifyFormula (args : RunArgs) : CalcProg VerifiedFormula := do
  let f ← lift (Formula.getFormula args.formulaCode)
  let found ← CalcProg.selectOne fun d =>
    d.tables.formulaDefinitions.filter fun x => x.formulaCode == args.formulaCode && x.active
  match found with
  | none => .raise (.value "FORMULA_NOT_SUPPORTED")
  | some definition =>
    let checksums ← lift (verifyChecksum cfg f definition.formulaSpecChecksum
      definition.implementationChecksum)
    return ⟨f, definition, checksums.1, checksums.2⟩

/-- The first of the periods with the last end. -/
def latest : List PeriodRow → Option PeriodRow
  | [] => none
  | p :: l =>
    match latest l with
    | none => some p
    | some q => if q.endDate ≤ p.endDate then some p else some q

/-- The query of `PREVIOUS_PERIOD`. -/
def previousPeriod (organizationId : Uuid) (rep : PeriodRow) (d : CalcDb) : Option PeriodRow :=
  latest (d.tables.periods.filter fun p => p.organizationId == organizationId &&
    p.periodType == rep.periodType && p.endDate < rep.startDate)

/-- The query of `PREVIOUS_YEAR_SAME_PERIOD`. -/
def previousYearSamePeriod (organizationId : Uuid) (rep : PeriodRow) (d : CalcDb) :
    Option PeriodRow :=
  d.tables.periods.find? fun p => p.organizationId == organizationId &&
    p.periodType == rep.periodType && p.fiscalYear == rep.fiscalYear - 1 &&
    p.comparisonKey == rep.comparisonKey

/-- A period of an organization. -/
def selectPeriod (organizationId id : Uuid) : CalcProg (Option PeriodRow) :=
  CalcProg.selectOne fun d => d.tables.periods.filter fun p =>
    p.id == id && p.organizationId == organizationId

/-- A comparison period that has to be there. -/
def found : Option PeriodRow → CalcProg PeriodRow
  | some p => .ret p
  | none => .raise (.value "COMPARISON_PERIOD_NOT_FOUND")

/-- The comparison period of a formula that needs one. -/
def resolveComparison (args : RunArgs) (requirement : ComparisonRequirement) (rep : PeriodRow) :
    CalcProg PeriodRow :=
  match args.comparisonPolicy, args.comparisonPeriodId with
  | .other _, _ => .raise (.value "COMPARISON_POLICY_UNSUPPORTED")
  | .explicitPeriod, none =>
    .raise (.value (if requirement = .requiredBeginningBalance then "BEGINNING_BALANCE_REQUIRED"
      else "COMPARISON_PERIOD_REQUIRED"))
  | .previousPeriod, none => (select (previousPeriod args.organizationId rep)).bind found
  | .previousYearSamePeriod, none =>
    (select (previousYearSamePeriod args.organizationId rep)).bind found
  | _, some id => do
    let comp ← (selectPeriod args.organizationId id).bind found
    if comp.periodType ≠ rep.periodType then .raise (.value "PERIOD_TYPE_MISMATCH")
    else return comp

/-- What a formula that takes a beginning balance requires of the periods. -/
def beginningError (comp rep : PeriodRow) : Option CalcExc :=
  if comp.id = rep.id then some (.value "DUPLICATE_BALANCE_INPUT")
  else if rep.startDate ≤ comp.startDate then some (.value "PERIOD_ORDER_INVALID")
  else none

/-- Steps 2 and 3: the reporting period, and the comparison period if the formula takes one. -/
def resolvePeriods (args : RunArgs) (f : Formula) : CalcProg (PeriodRow × Option PeriodRow) := do
  match ← selectPeriod args.organizationId args.reportingPeriodId with
  | none => .raise (.value "PERIOD_MISMATCH")
  | some rep =>
    match f.comparisonRequirement with
    | .none => return (rep, none)
    | .requiredComparison =>
      let comp ← resolveComparison args .requiredComparison rep
      return (rep, some comp)
    | .requiredBeginningBalance =>
      let comp ← resolveComparison args .requiredBeginningBalance rep
      match beginningError comp rep with
      | some x => .raise x
      | none => return (rep, some comp)

/-! ## Facts -/

/-- The conditions of every lookup; all bases are SOLO or CONSOLIDATED. -/
def eligible (args : RunArgs) (period : Option Uuid) (f : FinancialFact) : Bool :=
  f.organizationId == args.organizationId && f.institutionId == args.institutionId &&
    some f.reportingPeriodId == period && f.isActive && f.reviewStatus == .humanVerified &&
    f.valueOrigin == .sourceReported

/-- The lookup of a metric. -/
def selectMetric (args : RunArgs) (period : Option Uuid) (metric : String) :
    CalcProg (Option FinancialFact) :=
  selectFact fun f => eligible args period f && f.metricCode == metric

/-- `INSUFFICIENT_INPUT_FACTS`. -/
def insufficient : CalcProg FactObjects := .raise (.value "INSUFFICIENT_INPUT_FACTS")

/-- Step 5: the facts of the formula, locked. A growth rate takes a fact of any metric. -/
def selectFacts (args : RunArgs) (f : Formula) (comp : Option Uuid) : CalcProg FactObjects :=
  let period := some args.reportingPeriodId
  let metrics := f.expectedMetricCodes
  match f with
  | .loanToDepositRatio | .nplRatio => do
    let num ← selectMetric args period metrics.1
    let den ← selectMetric args period metrics.2
    match num, den with
    | some num, some den => return [(.numerator, num), (.denominator, den)]
    | _, _ => insufficient
  | .growthRate => do
    let cur ← selectFact (eligible args period)
    let prev ← selectFact (eligible args comp)
    match cur, prev with
    | some cur, some prev => return [(.currentValue, cur), (.comparisonValue, prev)]
    | _, _ => insufficient
  | .returnOnAssets | .returnOnEquity => do
    let inc ← selectMetric args period metrics.1
    let beg ← selectMetric args comp metrics.2
    let fin ← selectMetric args period metrics.2
    match inc, beg, fin with
    | some inc, some beg, some fin =>
      if beg.id = fin.id then .raise (.value "DUPLICATE_BALANCE_INPUT")
      else return [(.periodIncome, inc), (.beginningBalance, beg), (.endingBalance, fin)]
    | _, _, _ => insufficient

/-- The facts have the basis and the currency of the first one. -/
def consistencyError (facts : FactObjects) : Option CalcExc :=
  facts.head?.bind fun first => facts.findSome? fun x =>
    if x.2.reportingBasis ≠ first.2.reportingBasis then some (.value "REPORTING_BASIS_MISMATCH")
    else if x.2.currency ≠ first.2.currency then some (.value "CURRENCY_MISMATCH")
    else none

/-- What the selection gives to a run. -/
structure SelectedInputs where
  /-- `resolved_comp_period_id` -/
  comparisonPeriodId : Option Uuid
  annualizationFactor : ℚ
  /-- `fact_objects` -/
  facts : FactObjects

/-- Steps 2 to 5. -/
def selectInputs (args : RunArgs) (f : Formula) : CalcProg SelectedInputs := do
  let (rep, comp) ← resolvePeriods args f
  let factor ← lift (computeActIsdaAnnualizationFactor rep.startDate rep.endDate
    rep.periodPresentation f.inputRoleSemantics)
  let facts ← selectFacts args f (comp.map (·.id))
  match consistencyError facts with
  | some x => .raise x
  | none => return ⟨comp.map (·.id), factor, facts⟩

/-- Step 6: what the execution is. -/
def executionPayload (args : RunArgs) (v : VerifiedFormula) (s : SelectedInputs) :
    ExecutionPayload where
  organizationId := args.organizationId
  formulaCode := args.formulaCode
  formulaSpecChecksum := v.specChecksum
  implementationChecksum := v.implementationChecksum
  reportingPeriodId := args.reportingPeriodId
  comparisonPeriodId := s.comparisonPeriodId
  comparisonPolicy := args.comparisonPolicy
  inputs := s.facts.sorted.map roleSnapshot

/-! ## Requests -/

/-- `request_fingerprint`. -/
def fingerprint (args : RunArgs) : String :=
  cfg.requestFingerprint
    { organizationId := args.organizationId
      formulaCode := args.formulaCode
      institutionId := args.institutionId
      reportingPeriodId := args.reportingPeriodId
      comparisonPeriodId := args.comparisonPeriodId
      comparisonPolicy := args.comparisonPolicy }

/-- Step 7: the row of the request, locked; it is inserted in a savepoint if it is not there. -/
def resolveRequest (args : RunArgs) (comparisonPeriodId : Option Uuid) :
    CalcProg CalculationRequest := do
  match ← lockRequest args.organizationId (fingerprint cfg args) with
  | some r => return r
  | none =>
    let id ← uuid4
    let r : CalculationRequest :=
      { id, organizationId := args.organizationId
        requestFingerprint := fingerprint cfg args
        formulaCode := args.formulaCode
        institutionId := args.institutionId
        reportingPeriodId := args.reportingPeriodId
        comparisonPeriodId
        comparisonPolicy := args.comparisonPolicy
        requestedByUserId := args.requestedByUserId }
    attempt
    let inserted ← Prog.write (.insertRequest r) .ret
    if inserted then return r
    else
      match ← lockRequest args.organizationId (fingerprint cfg args) with
      | some r => return r
      | none => .raise .integrity

/-- The calculation with the execution hash, with what belongs to it. -/
def existing (organizationId : Uuid) (hash : String) : CalcProg (Option RunOutcome) := do
  match ← CalcProg.selectOne fun d => d.executed organizationId hash with
  | none => return none
  | some calculation =>
    let inputs ← select fun d => d.inputs.filter fun i => i.calculationId == calculation.id
    let reconciliation ← CalcProg.selectOne fun d =>
      d.reconciliations.filter fun r => r.calculationId == calculation.id
    return some ⟨calculation, inputs, reconciliation⟩

/-! ## Evidence -/

/-- The exception of a row that does not pass the lineage validation. -/
def LineageError.toExc : LineageError → CalcExc
  | .evidenceIncomplete => .value "EVIDENCE_INCOMPLETE"
  | .evidenceSourceMismatch => .value "EVIDENCE_SOURCE_MISMATCH"
  | .overflow => .overflow

/-- The evidence of one input. -/
def collectEvidence (organizationId calcId inputId : Uuid) (f : FinancialFact) :
    List (Uuid × EvidenceRow) → CalcProg (List CalculationEvidence)
  | [] => .ret []
  | (evidenceId, ev) :: rest => do
    let error ← select fun d => lineageError cfg.chars d.tables.reviewed organizationId ev
    match error with
    | some e => .raise e.toExc
    | none =>
      let id ← uuid4
      let collected ← collectEvidence organizationId calcId inputId f rest
      return { id, organizationId, calculationId := calcId, calculationInputId := inputId
               financialFactId := f.id, candidateId := f.sourceCandidateId
               candidateEvidenceId := evidenceId, sourceDocumentId := f.sourceDocumentId
               sourceDocumentVersionId := ev.sourceDocumentVersionId
               pageNumber := ev.pageNumber, sheetName := ev.sheetName
               cellCoordinate := ev.cellCoordinate, columnIndex := ev.columnIndex
               boundingBox := ev.boundingBox } :: collected

/-- Step 8: the inputs with their evidence. -/
def collectInputs (organizationId calcId : Uuid) (factor : ℚ) :
    FactObjects → CalcProg (List CalculationInput × List CalculationEvidence)
  | [] => .ret ([], [])
  | (role, f) :: rest => do
    let evidence ← select fun d => d.tables.evidence.filter fun e =>
      e.2.organizationId == organizationId && e.2.candidateId == f.sourceCandidateId
    if evidence.isEmpty then .raise (.value "EVIDENCE_INCOMPLETE")
    else
      let id ← uuid4
      let input : CalculationInput :=
        { id, organizationId, calculationId := calcId, financialFactId := f.id
          inputRole := role, metricCode := f.metricCode
          normalizedValueSnapshot := f.normalizedValue, currencySnapshot := f.currency
          unitSnapshot := f.unit, scaleSnapshot := f.scale
          reportingBasisSnapshot := f.reportingBasis
          reportingPeriodIdSnapshot := f.reportingPeriodId
          candidateId := f.sourceCandidateId, annualizationFactor := factor }
      let collected ← collectEvidence cfg organizationId calcId id f evidence
      let (inputs, evidences) ← collectInputs organizationId calcId factor rest
      return (input :: inputs, collected ++ evidences)

/-! ## Completion -/

/-- The figure that was reported for the formula itself, whatever its basis. -/
def reportedFigures (args : RunArgs) (d : CalcDb) : List FinancialFact :=
  d.facts.filter fun f =>
    eligible args (some args.reportingPeriodId) f && f.metricCode == args.formulaCode

/-- Step 11: the comparison with the reported figure. -/
def reconciliationOf (args : RunArgs) (definition : FormulaDefinition) (calcId id : Uuid)
    (result : FormulaResult) (source : FinancialFact) : CalculationReconciliation :=
  let diff := reconcile definition.toleranceKind definition.toleranceValue
    result.resultValueUnrounded source.normalizedValue
  { id, organizationId := args.organizationId, calculationId := calcId
    sourceReportedFactId := source.id
    sourceReportedValue := source.normalizedValue
    systemDerivedValue := result.resultValueDisplay
    derivedUnroundedValue := result.resultValueUnrounded
    difference := diff.absolute
    absoluteDifference := diff.absolute
    relativeDifference := diff.relative
    appliedToleranceKind := definition.toleranceKind
    appliedToleranceValue := definition.toleranceValue
    appliedToleranceUnit := definition.toleranceUnit
    tolerancePolicyVersion := definition.tolerancePolicyVersion
    reconciliationStatus := diff.status }

/-- What a run knows when it begins to write. -/
structure Execution where
  /-- the formula -/
  verified : VerifiedFormula
  /-- the facts and the periods -/
  selected : SelectedInputs
  /-- `active_idempotency_hash` -/
  hash : String
  /-- `calc_request` -/
  request : CalculationRequest

/-- The row of the calculation. -/
def calculationOf (args : RunArgs) (e : Execution) (result : FormulaResult)
    (calcId attemptId : Uuid) (attemptNumber : ℕ) : Calculation where
  id := calcId
  organizationId := args.organizationId
  calculationRequestId := e.request.id
  calculationAttemptId := attemptId
  institutionId := args.institutionId
  reportingPeriodId := args.reportingPeriodId
  comparisonPeriodId := e.selected.comparisonPeriodId
  formulaCode := args.formulaCode
  resultValueUnrounded := result.resultValueUnrounded
  resultValueDisplay := result.resultValueDisplay
  resultUnit := result.resultUnit
  resultScale := result.resultScale
  -- `ref_currency`, unless the result is a percentage or a ratio
  resultCurrency :=
    if result.resultUnit ∈ ["PERCENT", "RATIO"] then none
    else e.selected.facts.head?.map (·.2.currency)
  valueRepresentation := result.valueRepresentation
  roundingPolicy := result.roundingPolicy
  executionIdempotencyHash := e.hash
  formulaSpecChecksum := e.verified.specChecksum
  implementationChecksum := e.verified.implementationChecksum
  annualizationFactor := e.selected.annualizationFactor
  attemptNumber
  requestedByUserId := args.requestedByUserId

/-- The row of the attempt. -/
def attemptOf (args : RunArgs) (e : Execution) (attemptId : Uuid) (attemptNumber : ℕ) :
    CalculationAttempt where
  id := attemptId
  organizationId := args.organizationId
  calculationRequestId := e.request.id
  attemptNumber
  executionIdempotencyHash := some e.hash
  status := .completed
  errorCode := none
  formulaSpecChecksum := some e.verified.specChecksum
  implementationChecksum := some e.verified.implementationChecksum

/-- What follows the calculation in the same transaction: its evidence, its inputs and the
reconciliation, written when the completion is recorded. -/
def addLineage (args : RunArgs) (e : Execution) (result : FormulaResult)
    (calculation : Calculation) (inputs : List CalculationInput)
    (evidences : List CalculationEvidence) : CalcProg RunOutcome := do
  let reconciliation ←
    match ← CalcProg.selectOne (reportedFigures args) with
    | none => pure none
    | some source => do
      let id ← uuid4
      pure (some (reconciliationOf args e.verified.definition calculation.id id result source))
  executeAll (evidences.map .insertEvidence ++ inputs.map .insertInput ++
    reconciliation.toList.map .insertReconciliation)
  recordEvent
  commit
  return ⟨calculation, inputs, reconciliation⟩

/-- Steps 9 to 11. The attempt is written before the savepoint of the calculation, so that it is
pending when the calculation meets another one with the hash. -/
def complete (args : RunArgs) (e : Execution) (calcId : Uuid) (inputs : List CalculationInput)
    (evidences : List CalculationEvidence) : CalcProg RunOutcome := do
  let result ← lift (e.verified.formula.calculate e.selected.facts.input
    e.selected.annualizationFactor)
  let last ← select fun d => d.maxAttemptNumber args.organizationId e.request.id
  let attemptId ← uuid4
  execute (.insertAttempt (attemptOf args e attemptId (last + 1)))
  let calculation := calculationOf args e result calcId attemptId (last + 1)
  attempt
  let inserted ← Prog.write (.insertCalculation calculation) .ret
  if inserted then addLineage args e result calculation inputs evidences
  else if !(CalcStmt.insertCalculation calculation).fits then .raise .database
  else
    -- a race that was lost: the winner's rows are returned
    match ← existing args.organizationId e.hash with
    | some winner => return winner
    | none => .raise .integrity

/-- Steps 7 to 11. -/
def executeRun (args : RunArgs) (v : VerifiedFormula) (s : SelectedInputs) (hash : String) :
    CalcProg RunOutcome := do
  let request ← resolveRequest cfg args s.comparisonPeriodId
  match ← existing args.organizationId hash with
  | some outcome => return outcome
  | none =>
    let calcId ← uuid4
    let (inputs, evidences) ← collectInputs cfg args.organizationId calcId s.annualizationFactor
      s.facts
    complete args ⟨v, s, hash, request⟩ calcId inputs evidences

/-! ## Failure -/

/-- `ALLOWLIST_ERROR_CODES`. -/
def allowlistErrorCodes : List String :=
  ["FORMULA_VERSION_MISMATCH", "FORMULA_NOT_SUPPORTED", "FORMULA_INPUT_METRIC_UNAVAILABLE",
    "INSUFFICIENT_INPUT_FACTS", "EVIDENCE_INCOMPLETE", "EVIDENCE_SOURCE_MISMATCH",
    "REPORTING_BASIS_REQUIRED", "REPORTING_BASIS_MISMATCH", "UNIT_MISMATCH",
    "SCALE_NORMALIZATION_ERROR", "CURRENCY_MISMATCH", "DIVISION_BY_ZERO",
    "COMPARISON_PERIOD_REQUIRED", "COMPARISON_PERIOD_NOT_FOUND", "PERIOD_TYPE_MISMATCH",
    "PERIOD_ORDER_INVALID", "BEGINNING_BALANCE_REQUIRED", "DUPLICATE_BALANCE_INPUT",
    "ANNUALIZATION_POLICY_UNRESOLVED", "CALCULATION_INTERNAL_ERROR"]

/-- `classified_code`. -/
def classifiedCode : CalcExc → String
  | .value code =>
    if code ∈ allowlistErrorCodes then code else "CALCULATION_INTERNAL_ERROR"
  | _ => "CALCULATION_INTERNAL_ERROR"

/-- The row of a failed attempt. -/
def failedAttempt (args : RunArgs) (request : CalculationRequest) (id : Uuid) (attemptNumber : ℕ)
    (hash : Option String) (checksums : Option (String × String)) (code : String) :
    CalculationAttempt where
  id
  organizationId := args.organizationId
  calculationRequestId := request.id
  attemptNumber
  executionIdempotencyHash := hash
  status := .failed
  errorCode := some code
  formulaSpecChecksum := checksums.map (·.1)
  implementationChecksum := checksums.map (·.2)

/-- The recovery block: a failed attempt, in a transaction of its own. -/
def recordFailure (args : RunArgs) (hash : Option String) (checksums : Option (String × String))
    (code : String) : CalcProg Unit := do
  setTenant
  let request ← resolveRequest cfg args args.comparisonPeriodId
  let last ← select fun d => d.maxAttemptNumber args.organizationId request.id
  let id ← uuid4
  -- the row is written when the failure is recorded
  execute (.insertAttempt (failedAttempt args request id (last + 1) hash checksums code))
  recordEvent
  commit

/-- The exception handler, with the hash and the checksums as far as they are known. -/
def handle {α : Type} (args : RunArgs) (hash : Option String)
    (checksums : Option (String × String)) (err : CalcExc) : CalcProg α := do
  rollback
  (recordFailure cfg args hash checksums (classifiedCode err)).tryCatch fun _ => do
    rollback
    .raise (.value "CALCULATION_FAILURE_PERSISTENCE_FAILED")
  .raise (.value (classifiedCode err))

/-- `run_calculation`. -/
def runCalculation (args : RunArgs) : CalcProg RunOutcome := do
  setTenant
  recordEvent
  let v ← (verifyFormula cfg args).tryCatch (handle cfg args none none)
  let checksums := some (v.specChecksum, v.implementationChecksum)
  let s ← (selectInputs args v.formula).tryCatch (handle cfg args none checksums)
  let hash := cfg.executionHash (executionPayload args v s)
  (executeRun cfg args v s hash).tryCatch (handle cfg args (some hash) checksums)

end CalculationService

/-! ## Callers -/

/-- A session in which calculations are run one after the other. What a run raises does not end
the session, and after each run its caller commits or goes on. -/
def calculationSession (cfg : CalcConfig) : List RunArgs → CalcProg Unit
  | [] => .ret ()
  | args :: rest => do
    ((CalculationService.runCalculation cfg args).bind fun _ => .ret ()).tryCatch fun _ => .ret ()
    let commits ← Prog.ask fun i => .ret i.commits
    if commits then CalcProg.commit else pure ()
    calculationSession cfg rest

/-- Any number of sessions at work, while the rest of the application writes its tables. -/
def calcModel (cfg : CalcConfig) : Model CalcRow CalcStmt CalcAnswer Empty CalcDb CalcExc
    (List RunArgs) ReferenceTables where
  schema := calcSchema
  body := calculationSession cfg
  env tables d := { d with tables }

end FinanceIntelligence
