import FinanceIntelligence.RelyGuarantee
import FinanceIntelligence.FactStore

/-!
# The rows of ingestion

The tables that the ingestion worker reads and writes, and the tables of
transitions that `StateMachineService` allows. A job is grouped with its
attempts, and a document version with the content parsed from it. Times are
seconds.

A transition that the tables do not list makes the service raise, whoever asks for it; so which
statuses follow each other is decided by these tables and not by the programs.
-/

namespace FinanceIntelligence

/-! ## Statuses -/

/-- A status of an ingestion job or of a document version. -/
inductive IngestionStatus where
  | pendingUpload
  | uploaded
  | validating
  | validated
  | queued
  | parsing
  | extracted
  | completed
  | completedWithWarnings
  | awaitingReview
  | rejected
  | failed
  | cancelled
  | expired
deriving DecidableEq, Repr

namespace IngestionStatus

/-- `VERSION_TRANSITIONS`. -/
def versionTransitions : IngestionStatus → List IngestionStatus
  | pendingUpload => [queued, failed]
  | queued => [parsing, failed]
  | parsing =>
    [extracted, completed, completedWithWarnings, awaitingReview, rejected, failed, queued]
  | extracted => [completed, completedWithWarnings, awaitingReview, rejected, failed]
  | _ => []

/-- `JOB_TRANSITIONS`. -/
def jobTransitions : IngestionStatus → List IngestionStatus
  | pendingUpload => [uploaded, failed, expired]
  | uploaded => [validating, queued, failed, cancelled]
  | validating => [validated, rejected, failed]
  | validated => [queued, failed]
  | queued => [parsing, failed, cancelled]
  | parsing =>
    [extracted, completed, completedWithWarnings, awaitingReview, rejected, failed, queued]
  | extracted => [completed, completedWithWarnings, awaitingReview, rejected, failed]
  | failed => [queued]
  | _ => []

/-- `VALID_PARSER_STATUS_MAP`. -/
def validParserStatusMap : String → Option IngestionStatus
  | "COMPLETED" => some completed
  | "COMPLETED_WITH_WARNINGS" => some completedWithWarnings
  | "AWAITING_REVIEW" => some awaitingReview
  | "REJECTED" => some rejected
  | "FAILED" => some failed
  | _ => none

/-- A parse can end in the status. -/
def isFinal : IngestionStatus → Bool
  | completed | completedWithWarnings | awaitingReview | rejected | failed => true
  | _ => false

/-- The statuses that the parser's map leads to are final. -/
theorem isFinal_of_validParserStatusMap {status : String} {st : IngestionStatus}
    (h : validParserStatusMap status = some st) : st.isFinal = true := by
  unfold validParserStatusMap at h
  split at h <;> cases h <;> rfl

end IngestionStatus

/-! ## Rows -/

/-- `ingestion_jobs`. -/
structure IngestionJob where
  organizationId : Uuid
  documentVersionId : Uuid
  status : IngestionStatus
  currentAttempt : ℕ
  maxAttempts : ℕ
  lockedBy : Option String := none
  lockedAt : Option ℕ := none
  claimToken : Option Uuid := none
  createdAt : ℕ

/-- `ingestion_attempts`. -/
structure IngestionAttempt where
  id : Uuid
  attemptNumber : ℕ
  status : IngestionStatus
  errorCode : Option String := none
  errorMessage : Option String := none

/-- A job and its attempts. -/
structure IngestionRows where
  job : IngestionJob
  /-- `ingestion_attempts` -/
  attempts : List IngestionAttempt := []

/-- `document_versions`, with the columns of its ingestion. -/
structure IngestedVersion extends DocumentVersion where
  ingestionStatus : IngestionStatus
  extractionStatus : String

/-- `document_pages`. -/
structure DocumentPage where
  id : Uuid
  pageNumber : ℕ
  rawPageText : String

/-- `document_chunks`. -/
structure DocumentChunk where
  documentPageId : Option Uuid
  chunkIndex : ℕ
  chunkType : String
  content : String

/-- `extraction_results`. -/
structure ExtractionResult where
  id : Uuid
  parserName : String
  parserVersion : String
  status : String

/-- `extraction_warnings`. -/
structure ExtractionWarning where
  extractionResultId : Uuid
  warningCode : String
  warningMessage : String

/-- What the `idempotency_hash` of a candidate is a hash of, next to the ids of
the organization and of the version. -/
structure CandidateKey where
  /-- `raw_label.strip()` -/
  rawLabel : String
  /-- `raw_value.strip()` -/
  rawValue : String
  /-- `source_location` as sorted JSON -/
  sourceLocation : String
deriving DecidableEq

/-- A row of `financial_fact_candidates` as extraction inserts it, with its
evidence. -/
structure ExtractedCandidate where
  id : Uuid
  /-- what `idempotency_hash` stands for -/
  key : CandidateKey

/-- A row that a parse leaves behind. -/
inductive ContentRow where
  | page (p : DocumentPage)
  | chunk (c : DocumentChunk)
  | result (r : ExtractionResult)
  | warning (w : ExtractionWarning)
  | candidate (c : ExtractedCandidate)

/-- The key of a candidate row. -/
def ContentRow.candidateKey : ContentRow → Option CandidateKey
  | .candidate c => some c.key
  | _ => none

/-- A document version and the content parsed from it. -/
structure VersionRows where
  version : IngestedVersion
  /-- its pages, chunks, results, warnings and candidates, as they were inserted -/
  contents : List ContentRow := []

/-- `ingestion_command_logs`. -/
structure IngestionCommandLog where
  commandId : Uuid
  jobId : Uuid
  organizationId : Uuid
  idempotencyKey : String

/-- The database, and the clock its functions read. -/
structure IngestionDb where
  /-- `now()` -/
  now : ℕ
  /-- the ids of the jobs, in the order of a scan -/
  jobIds : List Uuid
  jobs : Uuid → Option IngestionRows
  /-- the document versions -/
  versions : Uuid → Option VersionRows
  /-- `ingestion_command_logs` -/
  commandLogs : List IngestionCommandLog

/-! ## Statements -/

/-- A writing statement. -/
inductive IngestionStmt where
  /-- `INSERT INTO document_versions` -/
  | createVersion (id : Uuid) (version : IngestedVersion)
  /-- `INSERT INTO ingestion_jobs` -/
  | createJob (id : Uuid) (job : IngestionJob)
  /-- `UPDATE ingestion_jobs` -/
  | updateJob (id : Uuid) (set : IngestionJob → IngestionJob)
  /-- `INSERT INTO ingestion_attempts` -/
  | insertAttempt (job : Uuid) (attempt : IngestionAttempt)
  /-- `UPDATE ingestion_attempts` of one row -/
  | updateAttempt (job attempt : Uuid) (set : IngestionAttempt → IngestionAttempt)
  /-- `UPDATE document_versions` -/
  | updateVersion (id : Uuid) (set : IngestedVersion → IngestedVersion)
  /-- an `INSERT` of content of a version -/
  | insertContent (version : Uuid) (row : ContentRow)
  /-- `INSERT INTO ingestion_command_logs` -/
  | insertCommandLog (log : IngestionCommandLog)

/-- A row that a statement can lock. -/
inductive IngestionRow where
  /-- a row of `ingestion_jobs` -/
  | job (id : Uuid)
  /-- a row of `document_versions` -/
  | version (id : Uuid)
deriving DecidableEq

namespace IngestionDb

/-- Replace the rows of a job. -/
def setJob (d : IngestionDb) (j : Uuid) (r : IngestionRows) : IngestionDb :=
  { d with jobs := Function.update d.jobs j (some r) }

/-- Replace the rows of a version. -/
def setVersion (d : IngestionDb) (v : Uuid) (x : VersionRows) : IngestionDb :=
  { d with versions := Function.update d.versions v (some x) }

/-- Change the rows of a job, if there is one. -/
def mapJob (d : IngestionDb) (j : Uuid) (f : IngestionRows → IngestionRows) : IngestionDb :=
  match d.jobs j with
  | some r => d.setJob j (f r)
  | none => d

/-- Change the rows of a version, if there is one. -/
def mapVersion (d : IngestionDb) (v : Uuid) (f : VersionRows → VersionRows) : IngestionDb :=
  match d.versions v with
  | some x => d.setVersion v (f x)
  | none => d

/-- The jobs, in the order of a scan. -/
def jobRows (d : IngestionDb) : List (Uuid × IngestionJob) :=
  d.jobIds.filterMap fun j => (d.jobs j).map fun r => (j, r.job)

@[simp] theorem setJob_jobs (d : IngestionDb) (j : Uuid) (r : IngestionRows) :
    (d.setJob j r).jobs = Function.update d.jobs j (some r) := rfl

@[simp] theorem setJob_versions (d : IngestionDb) (j : Uuid) (r : IngestionRows) :
    (d.setJob j r).versions = d.versions := rfl

@[simp] theorem setVersion_jobs (d : IngestionDb) (v : Uuid) (x : VersionRows) :
    (d.setVersion v x).jobs = d.jobs := rfl

@[simp] theorem setVersion_versions (d : IngestionDb) (v : Uuid) (x : VersionRows) :
    (d.setVersion v x).versions = Function.update d.versions v (some x) := rfl

@[simp] theorem setJob_setJob (d : IngestionDb) (j : Uuid) (r r' : IngestionRows) :
    (d.setJob j r).setJob j r' = d.setJob j r' := by
  simp [setJob]

@[simp] theorem setVersion_setVersion (d : IngestionDb) (v : Uuid) (x x' : VersionRows) :
    (d.setVersion v x).setVersion v x' = d.setVersion v x' := by
  simp [setVersion]

theorem setJob_self {d : IngestionDb} {j : Uuid} {r : IngestionRows} (h : d.jobs j = some r) :
    d.setJob j r = d := by
  rw [setJob, ← h, Function.update_eq_self]

theorem setVersion_self {d : IngestionDb} {v : Uuid} {x : VersionRows}
    (h : d.versions v = some x) : d.setVersion v x = d := by
  rw [setVersion, ← h, Function.update_eq_self]

theorem setVersion_setJob (d : IngestionDb) (v j : Uuid) (x : VersionRows) (r : IngestionRows) :
    (d.setVersion v x).setJob j r = (d.setJob j r).setVersion v x := rfl

theorem mapJob_eq {d : IngestionDb} {j : Uuid} {r : IngestionRows} (h : d.jobs j = some r)
    (f : IngestionRows → IngestionRows) : d.mapJob j f = d.setJob j (f r) := by
  rw [mapJob, h]

theorem mapVersion_eq {d : IngestionDb} {v : Uuid} {x : VersionRows} (h : d.versions v = some x)
    (f : VersionRows → VersionRows) : d.mapVersion v f = d.setVersion v (f x) := by
  rw [mapVersion, h]

end IngestionDb

namespace IngestionStmt

/-- The effect of a statement. -/
def apply : IngestionStmt → IngestionDb → IngestionDb
  | .createVersion v version, d => d.setVersion v { version }
  | .createJob j job, d => { d.setJob j { job } with jobIds := d.jobIds ++ [j] }
  | .updateJob j set, d => d.mapJob j fun r => { r with job := set r.job }
  | .insertAttempt j a, d => d.mapJob j fun r => { r with attempts := r.attempts ++ [a] }
  | .updateAttempt j id set, d => d.mapJob j fun r =>
    { r with attempts := r.attempts.map fun a => if a.id = id then set a else a }
  | .updateVersion v set, d => d.mapVersion v fun x => { x with version := set x.version }
  | .insertContent v row, d => d.mapVersion v fun x => { x with contents := x.contents ++ [row] }
  | .insertCommandLog log, d => { d with commandLogs := d.commandLogs ++ [log] }

/-- The constraints: primary keys, foreign keys, `uq_command_log_idempotency` and
`uq_fact_candidate_idempotency`. -/
def check : IngestionStmt → IngestionDb → Bool
  | .createVersion v _, d => (d.versions v).isNone
  | .createJob j job, d =>
    (d.jobs j).isNone && (d.versions job.documentVersionId).any fun x =>
      x.version.organizationId == job.organizationId
  | .insertAttempt j a, d => (d.jobs j).any fun r => r.attempts.all fun b => b.id != a.id
  | .insertContent v row, d => (d.versions v).any fun x =>
    row.candidateKey.isNone || x.contents.all fun b => b.candidateKey != row.candidateKey
  | .insertCommandLog log, d =>
    (d.jobs log.jobId).isSome && d.commandLogs.all fun b =>
      b.commandId != log.commandId &&
        !(b.organizationId == log.organizationId && b.idempotencyKey == log.idempotencyKey)
  | _, _ => true

/-- The row that a statement locks: its own, or the one its foreign key refers
to. -/
def target : IngestionStmt → Option IngestionRow
  | .createVersion v _ | .updateVersion v _ | .insertContent v _ => some (.version v)
  | .createJob j _ | .updateJob j _ | .insertAttempt j _ | .updateAttempt j _ _ => some (.job j)
  | .insertCommandLog log => some (.job log.jobId)

end IngestionStmt

/-- The schema. -/
def ingestionSchema : Schema IngestionRow IngestionStmt IngestionDb where
  apply := IngestionStmt.apply
  target := IngestionStmt.target
  check := IngestionStmt.check

end FinanceIntelligence
