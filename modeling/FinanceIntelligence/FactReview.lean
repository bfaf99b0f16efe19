import FinanceIntelligence.FactStore

/-!
# Reviewing candidates

`FinancialFactService`: approving a candidate as a new fact, approving it as a
revision of an active fact, rejecting it. Each is one transaction that locks the
candidate first; an approval that meets a different value commits what it found
and raises.

The checks are those of the service, in its order, so that the first one that fails is the one
that a caller hears of.
-/

namespace FinanceIntelligence

/-- How a review reads texts and values. -/
structure ReviewConfig where
  /-- `str.upper` -/
  upper : String → String
  /-- `str.lower` -/
  lower : String → String
  /-- `sha256(str(value)).hexdigest()` -/
  valueHash : ℚ → String

/-- An answer from outside the fact tables. -/
structure FactAnswer where
  /-- `uuid4()` -/
  uuid : Uuid := 0
  /-- `datetime.now(UTC)`, or `now()` of the database -/
  now : ℕ := 0
  /-- the callee raised -/
  fails : Bool := false

/-- The exceptions of a review. -/
inductive FactExc where
  /-- `ValueError` with its text -/
  | value (message : String)
  | noResultFound
  | multipleResultsFound
  /-- a constraint or the trigger of the database -/
  | constraint (s : FactStmt)
  /-- an exception of a callee outside the model -/
  | outside

/-- A program on the fact tables. -/
abbrev FactProg := Prog FactRow FactStmt FactAnswer Unit FactDb FactExc

namespace FactProg

/-- Read the rows as the transaction sees them. -/
def select : FactProg FactDb := Prog.read .ret

/-- A writing statement; a failing constraint is an exception. -/
def execute (s : FactStmt) : FactProg Unit :=
  Prog.write s fun ok => if ok then .ret () else .raise (.constraint s)

/-- Commit; a constraint that fails now is an exception. -/
def commit : FactProg Unit :=
  Prog.commit fun failed =>
    match failed with
    | none => .ret ()
    | some s => .raise (.constraint s)

/-- Raise unless the condition holds. -/
def ensure (c : Bool) (message : String) : FactProg Unit :=
  if c then .ret () else .raise (.value message)

/-- `datetime.now(UTC)`. -/
def now : FactProg ℕ := .ask fun i => .ret i.now

/-- A fresh identifier. -/
def uuid4 : FactProg Uuid := .ask fun i => .ret i.uuid

/-- `AuditService.record_event`: a row that nothing here reads. -/
def recordEvent : FactProg Unit := .ask fun i => if i.fails then .raise .outside else .ret ()

/-- `SELECT … WHERE id AND q FOR UPDATE` of a candidate. -/
def lockCandidate (id : Uuid) (q : FinancialFactCandidate → Bool) :
    FactProg (Option FinancialFactCandidate) :=
  .lock (.candidate id) (fun d => (d.candidates id).any q) fun found =>
    if found then .read fun d => .ret (d.candidates id) else .ret none

/-- `SELECT … WHERE id AND q FOR UPDATE` of a fact. -/
def lockFact (id : Uuid) (q : FinancialFact → Bool) : FactProg (Option FinancialFact) :=
  .lock (.fact id) (fun d => (d.fact id).any q) fun found =>
    if found then .read fun d => .ret (d.fact id) else .ret none

end FactProg

namespace FinancialFactService

open FactProg

variable (cfg : ReviewConfig)

/-! ## Evidence and basis -/

/-- `part in whole`, of strings. -/
def hasPart (part whole : String) : Bool := isPartOf part.toList whole.toList

/-- An index that a table cell needs is missing or negative. -/
def badIndex (i : Option ℤ) : Bool := i.all (· < 0)

/-- What is wrong with one evidence row of a candidate, if anything. -/
def evidenceError (d : FactDb) (organizationId : Uuid) (candidate : FinancialFactCandidate)
    (ev : CandidateEvidence) : Option String :=
  if ev.organizationId ≠ organizationId then
    some "EVIDENCE_SOURCE_MISMATCH: Cross-tenant evidence attempt rejected"
  else if ev.sourceDocumentVersionId ≠ candidate.sourceDocumentVersionId then
    some "EVIDENCE_LINEAGE_INCOMPLETE: Candidate evidence document version mismatch"
  else
    match d.documentVersions.find? fun v =>
      v.id == ev.sourceDocumentVersionId && v.organizationId == organizationId with
    | none => some "EVIDENCE_LINEAGE_INCOMPLETE: Document lineage mismatch"
    | some docVer =>
      let mime := cfg.lower <|
        if docVer.detectedMimeType ≠ "" then docVer.detectedMimeType else docVer.declaredMimeType
      if docVer.documentId ≠ candidate.sourceDocumentId then
        some "EVIDENCE_LINEAGE_INCOMPLETE: Document lineage mismatch"
      else if hasPart "pdf" mime then
        if ev.pageNumber.all (· < 1) then
          some "EVIDENCE_LINEAGE_INCOMPLETE: PDF evidence requires valid page_number >= 1"
        else if !(["x0", "y0", "x1", "y1"].all ev.boundingBox.contains) then
          some "EVIDENCE_LINEAGE_INCOMPLETE: PDF evidence requires valid bounding_box coordinates"
        else none
      else if hasPart "sheet" mime || hasPart "excel" mime || hasPart "spreadsheet" mime then
        if badIndex ev.rowIndex || badIndex ev.columnIndex then
          some ("EVIDENCE_LINEAGE_INCOMPLETE: " ++
            "XLSX evidence requires non-negative row_index and column_index")
        else none
      else if hasPart "csv" mime then
        if badIndex ev.rowIndex || badIndex ev.columnIndex then
          some ("EVIDENCE_LINEAGE_INCOMPLETE: " ++
            "CSV evidence requires non-negative row_index and column_index")
        else none
      else none

/-- The basis that a text names: it is asked for, else the detected one. -/
def resolveBasis (candidate : FinancialFactCandidate) (target : Option String) :
    Except String ReportingBasis :=
  let effectiveBasis := (target.filter (· ≠ "")).getD candidate.detectedReportingBasis
  if effectiveBasis = "" ∨ cfg.upper effectiveBasis = "UNKNOWN" then
    .error ("REPORTING_BASIS_REQUIRED: " ++
      "UNKNOWN reporting basis cannot be approved without explicit selection")
  else if cfg.upper effectiveBasis = "SOLO" then
    .ok .solo
  else if cfg.upper effectiveBasis = "CONSOLIDATED" then
    .ok .consolidated
  else
    .error ("UNSUPPORTED_REPORTING_BASIS: Invalid basis '" ++ effectiveBasis ++ "'")

/-- `_verify_evidence_and_basis`. -/
def verifyEvidenceAndBasis (organizationId : Uuid) (candidate : FinancialFactCandidate)
    (target : Option String) : FactProg ReportingBasis := do
  let d ← select
  let evidences := d.evidence.filter fun ev =>
    ev.organizationId == organizationId && ev.candidateId == candidate.id
  if evidences.isEmpty then
    Prog.raise (.value "EVIDENCE_INCOMPLETE: Candidate evidence missing from database")
  else
    match evidences.findSome? (evidenceError cfg d organizationId candidate) with
    | some message => .raise (.value message)
    | none =>
      match resolveBasis cfg candidate target with
      | .error message => .raise (.value message)
      | .ok basis => return basis

/-! ## Approvals -/

/-- The natural key of the fact that a candidate would become. -/
def keyOf (candidate : FinancialFactCandidate) (metricDefinitionId : Uuid)
    (basis : ReportingBasis) : FinancialFact.NaturalKey :=
  ⟨candidate.organizationId, candidate.institutionId, candidate.reportingPeriodId,
    metricDefinitionId, basis, candidate.normalizedCurrency, candidate.normalizedUnit⟩

/-- The fact made of a candidate; a parsed value of zero counts as none. -/
def newFact (candidate : FinancialFactCandidate) (metric : MetricDefinition)
    (basis : ReportingBasis) (value : ℚ) (user id : Uuid) (supersedes : Option Uuid)
    (nowUtc createdAt : ℕ) : FinancialFact where
  id := id
  organizationId := candidate.organizationId
  institutionId := candidate.institutionId
  reportingPeriodId := candidate.reportingPeriodId
  metricDefinitionId := metric.id
  metricCode := metric.metricCode
  value := (candidate.parsedDecimalValue.filter (· ≠ 0)).getD value
  currency := candidate.normalizedCurrency
  unit := candidate.normalizedUnit
  scale := candidate.normalizedScale
  normalizedValue := value
  reportingBasis := basis
  sourceCandidateId := candidate.id
  sourceDocumentId := candidate.sourceDocumentId
  sourceLocation := candidate.sourceLocation
  extractionMethod := candidate.extractionMethod
  confidenceScore := candidate.confidenceScore
  reviewStatus := .humanVerified
  verifiedByUserId := some user
  verifiedAt := nowUtc
  supersedesFactId := supersedes
  validFrom := nowUtc
  valueOrigin := candidate.valueOrigin
  createdAt := createdAt

/-- The candidate when it is approved. -/
def approved (basis : ReportingBasis) (candidate : FinancialFactCandidate) :
    FinancialFactCandidate :=
  { candidate with
    reviewStatus := .approved
    validationStatus := .approved
    detectedReportingBasis := match basis with
      | .solo => "SOLO"
      | .consolidated => "CONSOLIDATED" }

/-- The candidate when an active fact has another value. -/
def conflicted (f : FinancialFact) (nowUtc : ℕ) (candidate : FinancialFactCandidate) :
    FinancialFactCandidate :=
  { candidate with
    conflictingFactId := some f.id
    conflictDetectedAt := some nowUtc
    conflictReason := some "VALUE_MISMATCH"
    detectedValueHash := some (cfg.valueHash f.normalizedValue)
    validationStatus := .conflicted }

/-- The candidate when it is rejected. -/
def rejected (candidate : FinancialFactCandidate) : FinancialFactCandidate :=
  { candidate with reviewStatus := .rejected, validationStatus := .rejected }

/-- `metric_res.scalar_one()`. -/
def metricDefinition (id : Uuid) : FactProg MetricDefinition := do
  let d ← select
  match d.metricDefinitions.find? fun m => m.id == id with
  | none => .raise .noResultFound
  | some m => return m

/-- The active fact of a natural key, locked. The query finds it in one
statement; a fact that was closed while it waited for the lock does not qualify
any more, and its successor was not found. -/
def lockActiveFact (key : FinancialFact.NaturalKey) : FactProg (Option FinancialFact) := do
  let q := fun f : FinancialFact => f.isActive && f.naturalKey == key
  let d ← select
  match d.facts.filter q with
  | [] => return none
  | [f] => lockFact f.id q
  | _ :: _ :: _ => .raise .multipleResultsFound

/-- The rest of an approval that makes a fact: the candidate, the decision and
the audit row, in one commit. -/
def finishApproval (candidate : FinancialFactCandidate) (basis : ReportingBasis)
    (decision : FactReviewDecision) : FactProg Unit := do
  execute (.updateCandidate candidate.id (approved basis))
  execute (.insertDecision decision)
  recordEvent
  commit

/-- `approve_candidate`. -/
def approveCandidate (organizationId candidateId user : Uuid) (target notes : Option String) :
    FactProg Unit := do
  match ← lockCandidate candidateId (·.organizationId == organizationId) with
  | none => .raise (.value "CANDIDATE_NOT_FOUND")
  | some candidate =>
    ensure (candidate.reviewStatus == .pending) "CANDIDATE_ALREADY_REVIEWED"
    match candidate.normalizedValue, candidate.metricDefinitionId with
    | none, _ => .raise (.value "CANNOT_APPROVE_UNPARSED_VALUE")
    | some _, none => .raise (.value "CANNOT_APPROVE_WITHOUT_METRIC_DEFINITION")
    | some value, some metricId =>
      let basis ← verifyEvidenceAndBasis cfg organizationId candidate target
      let metric ← metricDefinition metricId
      let existing ← lockActiveFact (keyOf candidate metricId basis)
      let nowUtc ← now
      match existing with
      | some f =>
        if f.normalizedValue = value then
          execute (.updateCandidate candidate.id (approved basis))
          execute (.insertDecision
            { organizationId, candidateId := candidate.id, reviewerUserId := user
              decision := .approved
              decisionNotes := some ((notes.filter (· ≠ "")).getD
                "Corroborating candidate approved")
              createdFactId := some f.id })
          commit
        else
          execute (.updateCandidate candidate.id (conflicted cfg f nowUtc))
          commit
          Prog.raise (.value ("FACT_VALUE_CONFLICT: Active fact with different value exists. " ++
            "Use explicit revision approval."))
      | none =>
        let id ← uuid4
        let createdAt ← now
        execute (.insertFact (newFact candidate metric basis value user id none nowUtc createdAt))
        finishApproval candidate basis
          { organizationId, candidateId := candidate.id, reviewerUserId := user
            decision := .approved, decisionNotes := notes, createdFactId := some id }

/-- `approve_candidate_as_revision`. -/
def approveCandidateAsRevision (organizationId candidateId expected user : Uuid)
    (target notes : Option String) : FactProg Unit := do
  match ← lockCandidate candidateId (·.organizationId == organizationId) with
  | none => .raise (.value "CANDIDATE_NOT_FOUND")
  | some candidate =>
    ensure (candidate.reviewStatus == .pending || candidate.validationStatus == .conflicted)
      "CANDIDATE_ALREADY_REVIEWED"
    match candidate.normalizedValue, candidate.metricDefinitionId with
    | some value, some metricId =>
      ensure (candidate.conflictingFactId.all (· == expected))
        "REVISION_TARGET_MISMATCH: Target fact ID does not match candidate conflict target."
      let basis ← verifyEvidenceAndBasis cfg organizationId candidate target
      match ← lockFact expected fun f => f.organizationId == organizationId && f.isActive with
      | none => .raise (.value ("REVISION_CONCURRENCY_CONFLICT: " ++
          "Expected active fact not found or already invalidated."))
      | some old =>
        ensure (old.naturalKey == keyOf candidate metricId basis)
          ("REVISION_NATURAL_KEY_MISMATCH: " ++
            "Revision target does not match candidate natural key.")
        ensure (old.normalizedValue != value)
          ("REVISION_VALUE_UNCHANGED: " ++
            "Candidate normalized value is identical to active fact value.")
        let nowUtc ← now
        let metric ← metricDefinition metricId
        let id ← uuid4
        let createdAt ← now
        -- one flush: updates go before inserts
        execute (.updateFact old.id (FinancialFact.close nowUtc))
        execute (.insertFact
          (newFact candidate metric basis value user id (some old.id) nowUtc createdAt))
        finishApproval candidate basis
          { organizationId, candidateId := candidate.id, reviewerUserId := user
            decision := .approved
            decisionNotes := some ((notes.filter (· ≠ "")).getD
              ("Explicit revision superseding fact " ++ uuidText old.id))
            createdFactId := some id }
    | _, _ => .raise (.value "CANNOT_APPROVE_INVALID_CANDIDATE")

/-- `reject_candidate`. -/
def rejectCandidate (organizationId candidateId user : Uuid) (reasonCode : String)
    (notes : Option String) : FactProg Unit := do
  match ← lockCandidate candidateId (·.organizationId == organizationId) with
  | none => .raise (.value "CANDIDATE_NOT_FOUND")
  | some candidate =>
    ensure (candidate.reviewStatus == .pending) "CANDIDATE_ALREADY_REVIEWED"
    execute (.updateCandidate candidate.id rejected)
    execute (.insertDecision
      { organizationId, candidateId := candidate.id, reviewerUserId := user
        decision := .rejected, rejectionReasonCode := some reasonCode, decisionNotes := notes })
    recordEvent
    commit

end FinancialFactService

/-- A review that a process serves. -/
inductive ReviewCall where
  | approve (organizationId candidateId user : Uuid) (target notes : Option String)
  | approveAsRevision (organizationId candidateId expected user : Uuid)
      (target notes : Option String)
  | reject (organizationId candidateId user : Uuid) (reasonCode : String) (notes : Option String)

/-- Any number of reviewers at work. -/
def reviewModel (cfg : ReviewConfig) :
    Model FactRow FactStmt FactAnswer Unit FactDb FactExc ReviewCall Empty where
  schema := factSchema
  body
    | .approve org cand user target notes =>
      FinancialFactService.approveCandidate cfg org cand user target notes
    | .approveAsRevision org cand expected user target notes =>
      FinancialFactService.approveCandidateAsRevision cfg org cand expected user target notes
    | .reject org cand user reasonCode notes =>
      FinancialFactService.rejectCandidate org cand user reasonCode notes
  env := nofun

end FinanceIntelligence
