import FinanceIntelligence.RelyGuarantee
import FinanceIntelligence.RequestPlan
import FinanceIntelligence.QualityGate
import Mathlib.Data.Rat.Defs

/-!
# The rows of financial facts

Candidates, facts and review decisions, with the evidence and the reference
data that a review reads. The constraints are those of the migrations: the
primary keys, the partial unique index on the natural key of active facts, the
reference of a revision and the immutability trigger.

A `NUMERIC(28, 6)` is a rational number, a time a natural one.
-/

namespace FinanceIntelligence

/-- A resolved reporting basis: `SOLO` or `CONSOLIDATED`. -/
abbrev ReportingBasis := RequestedBasis

/-- Where a value comes from. -/
inductive ValueOrigin where
  | sourceReported
  | systemDerived
deriving DecidableEq, Repr

/-- `review_status` of a candidate. -/
inductive ReviewStatus where
  | pending
  | approved
  | rejected
deriving DecidableEq, Repr

/-- `validation_status` of a candidate. -/
inductive ValidationStatus where
  | extracted
  | normalized
  | needsReview
  | conflicted
  | approved
  | rejected
deriving DecidableEq, Repr

/-- `review_status` of a fact; reviews only make verified ones. -/
inductive FactStatus where
  | humanVerified
  | unverified
deriving DecidableEq, Repr

/-- `financial_fact_candidates`. -/
structure FinancialFactCandidate where
  id : Uuid
  organizationId : Uuid
  institutionId : Uuid
  reportingPeriodId : Uuid
  metricDefinitionId : Option Uuid
  parsedDecimalValue : Option ℚ
  normalizedCurrency : String
  normalizedUnit : String
  normalizedScale : String
  normalizedValue : Option ℚ
  detectedReportingBasis : String
  sourceDocumentId : Uuid
  sourceDocumentVersionId : Uuid
  /-- `source_location`, as JSON text -/
  sourceLocation : String := ""
  extractionMethod : String := "PARSER_TABLE"
  confidenceScore : ℚ := 1 / 2
  validationStatus : ValidationStatus
  reviewStatus : ReviewStatus
  valueOrigin : ValueOrigin := .sourceReported
  conflictingFactId : Option Uuid := none
  conflictDetectedAt : Option ℕ := none
  conflictReason : Option String := none
  detectedValueHash : Option String := none

/-- `financial_facts`. -/
structure FinancialFact where
  id : Uuid
  organizationId : Uuid
  institutionId : Uuid
  reportingPeriodId : Uuid
  metricDefinitionId : Uuid
  metricCode : String
  value : ℚ
  currency : String
  unit : String
  scale : String
  normalizedValue : ℚ
  reportingBasis : ReportingBasis
  sourceCandidateId : Uuid
  sourceDocumentId : Uuid
  /-- `source_location`, as JSON text -/
  sourceLocation : String := ""
  extractionMethod : String := "PARSER_TABLE"
  confidenceScore : ℚ := 1
  reviewStatus : FactStatus := .humanVerified
  verifiedByUserId : Option Uuid
  verifiedAt : ℕ
  supersedesFactId : Option Uuid
  validFrom : ℕ
  validTo : Option ℕ := none
  valueOrigin : ValueOrigin
  createdAt : ℕ
deriving DecidableEq

namespace FinancialFact

/-- The columns of `uq_financial_facts_active_natural_key`. -/
structure NaturalKey where
  organizationId : Uuid
  institutionId : Uuid
  reportingPeriodId : Uuid
  metricDefinitionId : Uuid
  reportingBasis : ReportingBasis
  currency : String
  unit : String
deriving DecidableEq

/-- The natural key of a fact. -/
def naturalKey (f : FinancialFact) : NaturalKey :=
  ⟨f.organizationId, f.institutionId, f.reportingPeriodId, f.metricDefinitionId,
    f.reportingBasis, f.currency, f.unit⟩

/-- `valid_to IS NULL`. -/
def isActive (f : FinancialFact) : Bool := f.validTo.isNone

/-- The columns that `prevent_financial_fact_mutation` protects. -/
structure Core where
  /-- the natural key -/
  key : NaturalKey
  metricCode : String
  value : ℚ
  normalizedValue : ℚ
  scale : String
  sourceCandidateId : Uuid
  sourceDocumentId : Uuid
  valueOrigin : ValueOrigin
  createdAt : ℕ
deriving DecidableEq

/-- The core of a fact. -/
def core (f : FinancialFact) : Core :=
  ⟨f.naturalKey, f.metricCode, f.value, f.normalizedValue, f.scale, f.sourceCandidateId,
    f.sourceDocumentId, f.valueOrigin, f.createdAt⟩

/-- Two rows that the unique index does not allow together. -/
def clashes (f g : FinancialFact) : Bool :=
  f.isActive && g.isActive && f.naturalKey == g.naturalKey

/-- The row after its validity was ended. -/
def close (t : ℕ) (f : FinancialFact) : FinancialFact := { f with validTo := some t }

end FinancialFact

/-- The decision of a review. -/
inductive Decision where
  | approved
  | rejected
deriving DecidableEq, Repr

/-- `fact_review_decisions`. -/
structure FactReviewDecision where
  organizationId : Uuid
  candidateId : Uuid
  reviewerUserId : Uuid
  decision : Decision
  rejectionReasonCode : Option String := none
  decisionNotes : Option String
  createdFactId : Option Uuid := none

/-- `candidate_evidence`. -/
structure CandidateEvidence where
  organizationId : Uuid
  candidateId : Uuid
  sourceDocumentVersionId : Uuid
  pageNumber : Option ℤ := none
  rowIndex : Option ℤ := none
  columnIndex : Option ℤ := none
  /-- the keys of `bounding_box` -/
  boundingBox : List String := []

/-- `document_versions`. -/
structure DocumentVersion where
  id : Uuid
  organizationId : Uuid
  documentId : Uuid
  declaredMimeType : String
  detectedMimeType : String

/-- `metric_definitions`. -/
structure MetricDefinition where
  id : Uuid
  metricCode : String
deriving DecidableEq

/-- The contents: the tables a review writes, and those it only reads. -/
structure FactDb where
  /-- `financial_fact_candidates`, by id -/
  candidates : Uuid → Option FinancialFactCandidate
  /-- `financial_facts`, in insertion order -/
  facts : List FinancialFact
  /-- `fact_review_decisions`, in insertion order -/
  decisions : List FactReviewDecision
  /-- `candidate_evidence` -/
  evidence : List CandidateEvidence
  documentVersions : List DocumentVersion
  metricDefinitions : List MetricDefinition

namespace FactDb

/-- The fact with an id. -/
def fact (d : FactDb) (id : Uuid) : Option FinancialFact := d.facts.find? fun f => f.id == id

/-- `UPDATE financial_facts … WHERE id`. -/
def updateFact (d : FactDb) (id : Uuid) (set : FinancialFact → FinancialFact) : FactDb :=
  { d with facts := d.facts.map fun f => if f.id = id then set f else f }

/-- `UPDATE financial_fact_candidates … WHERE id`. -/
def updateCandidate (d : FactDb) (id : Uuid)
    (set : FinancialFactCandidate → FinancialFactCandidate) : FactDb :=
  { d with candidates := fun i => if i = id then (d.candidates i).map set else d.candidates i }

end FactDb

/-- The rows that reviews lock. -/
inductive FactRow where
  | candidate (id : Uuid)
  | fact (id : Uuid)
deriving DecidableEq

/-- The writing statements of the reviews. -/
inductive FactStmt where
  | insertFact (f : FinancialFact)
  | updateFact (id : Uuid) (set : FinancialFact → FinancialFact)
  | updateCandidate (id : Uuid) (set : FinancialFactCandidate → FinancialFactCandidate)
  | insertDecision (decision : FactReviewDecision)

namespace FactStmt

/-- The effect of a statement. -/
def apply : FactStmt → FactDb → FactDb
  | .insertFact f, d => { d with facts := d.facts ++ [f] }
  | .updateFact id set, d => d.updateFact id set
  | .updateCandidate id set, d => d.updateCandidate id set
  | .insertDecision decision, d => { d with decisions := d.decisions ++ [decision] }

/-- The row of a statement. -/
def target : FactStmt → Option FactRow
  | .insertFact f => some (.fact f.id)
  | .updateFact id _ => some (.fact id)
  | .updateCandidate id _ => some (.candidate id)
  | .insertDecision _ => none

/-- The constraints: keys and references of an inserted fact, the trigger and
the unique index for an updated one. -/
def check : FactStmt → FactDb → Bool
  | .insertFact f, d =>
    (d.facts.all fun g => g.id != f.id && !f.clashes g) &&
      f.supersedesFactId.all fun x =>
        d.facts.any fun g => g.id == x && g.organizationId == f.organizationId
  | .updateFact id set, d =>
    d.facts.all fun f => f.id != id || (set f).core == f.core &&
      d.facts.all fun g => g.id == id || !(set f).clashes g
  | .updateCandidate _ _, _ => true
  | .insertDecision _, _ => true

end FactStmt

/-- The schema of the fact tables. -/
def factSchema : Schema FactRow FactStmt FactDb where
  apply := FactStmt.apply
  target := FactStmt.target
  check := FactStmt.check

end FinanceIntelligence
