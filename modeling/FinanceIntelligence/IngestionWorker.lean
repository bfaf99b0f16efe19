import FinanceIntelligence.IngestionStore
import FinanceIntelligence.QualityGate
import Mathlib.Data.List.MinMax

/-!
# The ingestion worker

The database functions that pick and claim a job, the transitions of
`StateMachineService`, and `IngestionWorker`: a transaction that claims a job and
logs the command, one that parses the file and persists what the parser found,
and, if that fails, one that records the failure.
-/

namespace FinanceIntelligence

/-! ## What comes from outside -/

/-- An exception of code outside the model: its text, and its `code` and
`message` if it has them. -/
structure Failure where
  /-- `str(err)` -/
  text : String
  /-- `err.code` -/
  code : Option String := none
  /-- `err.message` -/
  message : Option String := none

/-- A page the parser found. -/
structure PageData where
  pageNumber : ℕ
  rawPageText : String := ""

/-- A chunk the parser found. -/
structure ChunkData where
  /-- `source_lineage.page_number` -/
  pageNumber : Option ℕ
  chunkIndex : ℕ
  chunkType : String
  content : String

/-- `CanonicalExtractionOutput`. -/
structure CanonicalExtractionOutput where
  parserName : String := ""
  parserVersion : String := ""
  status : String := "COMPLETED"
  pages : List PageData := []
  chunks : List ChunkData := []
  /-- the code and the message of each of the `warnings` -/
  warnings : List (String × String) := []

/-- What `extract_candidates` asks `create_candidate` for. -/
structure CandidateInput where
  /-- label, value and location -/
  key : CandidateKey
  /-- the location has a `col_index` or a `columnIndex` -/
  legacyLineage : Bool := false

/-- An answer from outside the ingestion tables. -/
structure IngestionAnswer where
  /-- `uuid4()` -/
  uuid : Uuid := 0
  /-- `uuid4().hex` -/
  hex : String := ""
  /-- the code of `InvalidCommandEnvelopeError`, if `validate_envelope` raised it -/
  envelopeError : Option String := none
  /-- the callee raised -/
  failure : Option Failure := none
  /-- what the parser found -/
  output : CanonicalExtractionOutput := {}
  /-- the figures found in the parsed document -/
  candidates : List CandidateInput := []

/-- The exceptions of the ingestion programs. -/
inductive IngestionExc where
  /-- an exception of code outside the model, or a `ValueError` -/
  | raised (f : Failure)
  | invalidStateTransition (current target : IngestionStatus)
  /-- a `BaseAPIException` that names a missing row -/
  | notFound (code message : String)
  /-- a constraint of the database -/
  | constraint (s : IngestionStmt)

/-- `ClaimedJob`. -/
structure ClaimedJob where
  jobId : Uuid
  organizationId : Uuid
  documentVersionId : Uuid
  workerId : String
  claimToken : Uuid

/-- What a process notes: the job it claims, the claim it processes, and the
attempt it parses in. -/
inductive IngestionMark where
  | claiming (job : Uuid)
  | processing (c : ClaimedJob)
  | parsing (c : ClaimedJob) (attemptNumber : ℕ)

/-- A program on the ingestion tables. -/
abbrev IngestionProg :=
  Prog IngestionRow IngestionStmt IngestionAnswer IngestionMark IngestionDb IngestionExc

namespace IngestionProg

/-- Read the rows as the transaction sees them. -/
def select : IngestionProg IngestionDb := Prog.read .ret

/-- A writing statement; a failing constraint is an exception. -/
def execute (s : IngestionStmt) : IngestionProg Unit :=
  Prog.write s fun ok => if ok then .ret () else .raise (.constraint s)

/-- Commit; a constraint that fails now is an exception. -/
def commit : IngestionProg Unit :=
  Prog.commit fun failed =>
    match failed with
    | none => .ret ()
    | some s => .raise (.constraint s)

/-- `session.rollback()`. -/
def rollback : IngestionProg Unit := Prog.rollback (.ret ())

/-- Note what the process does from here on. -/
def note (m : IngestionMark) : IngestionProg Unit := Prog.note m (.ret ())

/-- A call of something outside the model, which may raise. -/
def call {α : Type} (f : IngestionAnswer → α) : IngestionProg α :=
  .ask fun i =>
    match i.failure with
    | none => .ret (f i)
    | some err => .raise (.raised err)

/-- A fresh identifier. -/
def uuid4 : IngestionProg Uuid := .ask fun i => .ret i.uuid

/-- `AuditService.record_event`: a row that nothing here reads. -/
def recordEvent : IngestionProg Unit := call fun _ => ()

/-- `SELECT … FROM ingestion_jobs WHERE id = j AND q FOR UPDATE`. -/
def lockJob (j : Uuid) (q : IngestionJob → Bool) : IngestionProg (Option IngestionRows) :=
  .lock (.job j) (fun d => (d.jobs j).any fun r => q r.job) fun found =>
    if found then .read fun d => .ret (d.jobs j) else .ret none

/-- `SELECT … WHERE id = j AND q FOR UPDATE SKIP LOCKED`. -/
def lockJobSkip (j : Uuid) (q : IngestionJob → Bool) : IngestionProg (Option IngestionRows) :=
  .lockSkip (fun d => if (d.jobs j).any fun r => q r.job then [.job j] else []) 1 fun l =>
    if l.isEmpty then .ret none else .read fun d => .ret (d.jobs j)

/-- `SELECT … FROM document_versions WHERE id = v AND q FOR UPDATE`. -/
def lockVersion (v : Uuid) (q : IngestedVersion → Bool) : IngestionProg (Option VersionRows) :=
  .lock (.version v) (fun d => (d.versions v).any fun x => q x.version) fun found =>
    if found then .read fun d => .ret (d.versions v) else .ret none

end IngestionProg

/-! ## The queue -/

namespace IngestionQueue

/-- A parse of the job began more than the given minutes ago. -/
def stale (minutes now : ℕ) (job : IngestionJob) : Bool :=
  job.status == .parsing && job.lockedAt.any (· + 60 * minutes < now)

/-- The condition of `fetch_next_queued_ingestion_job`. -/
def ready (minutes now : ℕ) (job : IngestionJob) : Bool :=
  job.status == .queued || stale minutes now job

/-- The condition of `claim_ingestion_job`. -/
def claimable (now : ℕ) (job : IngestionJob) : Bool :=
  job.status == .queued || stale 15 now job && job.currentAttempt < job.maxAttempts

/-- `fetch_next_queued_ingestion_job`, on the rows in the order of a scan. -/
def fetchNextQueuedIngestionJob (minutes now : ℕ) (rows : List (Uuid × IngestionJob)) :
    Option Uuid :=
  ((rows.filter fun x => ready minutes now x.2).argmin fun x => x.2.createdAt).map (·.1)

/-- The job row handed to the worker `w`. -/
def handOut (w : String) (claimToken : Uuid) (now : ℕ) (job : IngestionJob) : IngestionJob :=
  { job with
    status := .parsing
    lockedBy := some w
    claimToken := some claimToken
    lockedAt := some now }

open IngestionProg

/-- `claim_ingestion_job`. -/
def claimIngestionJob (now : ℕ) (j : Uuid) (w : String) (claimToken : Uuid) :
    IngestionProg (Option ClaimedJob) := do
  match ← lockJobSkip j (claimable now) with
  | none => return none
  | some r =>
    execute (.updateJob j (handOut w claimToken now))
    return some ⟨j, r.job.organizationId, r.job.documentVersionId, w, claimToken⟩

end IngestionQueue

/-! ## Transitions -/

namespace StateMachineService

open IngestionProg

/-- `transition_job`. -/
def transitionJob (j : Uuid) (expected target : IngestionStatus) (organizationId : Uuid) :
    IngestionProg Unit := do
  match ← lockJob j fun job => job.organizationId == organizationId with
  | none => .raise (.notFound "JOB_NOT_FOUND" "Ingestion job not found.")
  | some r =>
    if r.job.status ≠ expected ∨ target ∉ r.job.status.jobTransitions then
      .raise (.invalidStateTransition r.job.status target)
    else
      recordEvent
      execute (.updateJob j fun job => { job with status := target })

/-- `transition_version`. -/
def transitionVersion (v : Uuid) (expected target : IngestionStatus) (organizationId : Uuid) :
    IngestionProg Unit := do
  match ← lockVersion v fun version => version.organizationId == organizationId with
  | none => .raise (.notFound "VERSION_NOT_FOUND" "Document version not found.")
  | some x =>
    if x.version.ingestionStatus ≠ expected ∨
        target ∉ x.version.ingestionStatus.versionTransitions then
      .raise (.invalidStateTransition x.version.ingestionStatus target)
    else
      recordEvent
      execute (.updateVersion v fun version => { version with ingestionStatus := target })

end StateMachineService

/-! ## Candidates -/

namespace FactCandidateService

open IngestionProg

/-- The version has a candidate with the key. -/
def hasCandidate (d : IngestionDb) (v : Uuid) (key : CandidateKey) : Bool :=
  (d.versions v).any fun x => x.contents.any fun row => row.candidateKey == some key

/-- `create_candidate`: an existing candidate is returned, also when the insert
meets one, which its savepoint undoes. -/
def createCandidate (v : Uuid) (input : CandidateInput) : IngestionProg Unit := do
  let d ← select
  if hasCandidate d v input.key then
    return ()
  else if input.legacyLineage then
    Prog.raise (.raised { text := "LEGACY_LINEAGE_FIELD_REJECTED" })
  else
    let id ← uuid4
    let row : ContentRow := .candidate ⟨id, input.key⟩
    let ok ← Prog.write (.insertContent v row) .ret
    if ok then
      recordEvent
    else
      let d ← select
      if hasCandidate d v input.key then return () else .raise (.constraint (.insertContent v row))

end FactCandidateService

/-! ## The worker -/

/-- `WorkerOutcomeStatus`. -/
inductive WorkerOutcomeStatus where
  | noJobClaimed
  | processedSuccess
  | processedReviewRequired
  | processedRejected
  | processedFailed
  | staleClaimAborted
  | rejected
deriving DecidableEq, Repr

/-- `IngestionCommandEnvelope`. -/
structure IngestionCommandEnvelope where
  jobId : Uuid
  commandId : Uuid
  idempotencyKey : String

namespace IngestionWorker

open IngestionProg IngestionQueue StateMachineService FactCandidateService

/-- `KNOWN_SAFE_ERROR_CODES`. -/
def knownSafeErrorCodes : List String :=
  ["DOCUMENT_VERSION_NOT_FOUND", "UNSUPPORTED_MIME_TYPE", "ENCRYPTED_DOCUMENT",
    "MALFORMED_DOCUMENT", "RESOURCE_LIMIT_EXCEEDED", "ENCODING_UNCERTAIN", "NULL_BYTE_DETECTED",
    "ZIP_BOMB_LIMIT_EXCEEDED", "UNKNOWN_PARSER_STATUS"]

/-- The error code and the message that a failed attempt records. -/
def errorReport : IngestionExc → String × String
  | .raised f =>
    if isPartOf "UNKNOWN_PARSER_STATUS".toList f.text.toList then
      ("UNKNOWN_PARSER_STATUS", "Unknown or unmapped parser output status.")
    else
      let rawCode := f.code.getD "PARSER_EXCEPTION"
      if rawCode ∈ knownSafeErrorCodes then
        (rawCode, f.message.getD "A parsing or worker processing error occurred.")
      else ("PARSER_FAILED", "Document parsing failed due to a worker exception.")
  | _ => ("PARSER_FAILED", "Document parsing failed due to a worker exception.")

/-- The row is claimed by the worker under the token. -/
def owned (c : ClaimedJob) (job : IngestionJob) : Bool :=
  job.lockedBy == some c.workerId && job.claimToken == some c.claimToken

/-- Insert the pages; the ids by page number, the latest first. -/
def persistPages (v : Uuid) : List PageData → IngestionProg (List (ℕ × Uuid))
  | [] => return []
  | page :: rest => do
    let id ← uuid4
    execute (.insertContent v (.page ⟨id, page.pageNumber, page.rawPageText⟩))
    let pageMap ← persistPages v rest
    return pageMap ++ [(page.pageNumber, id)]

/-- Insert the chunks; a page number of zero counts as none. -/
def persistChunks (v : Uuid) (pageMap : List (ℕ × Uuid)) : List ChunkData → IngestionProg Unit
  | [] => return ()
  | chunk :: rest => do
    let pageId := (chunk.pageNumber.filter (· ≠ 0)).bind fun n => List.lookup n pageMap
    execute (.insertContent v (.chunk ⟨pageId, chunk.chunkIndex, chunk.chunkType, chunk.content⟩))
    persistChunks v pageMap rest

/-- Insert the warnings. -/
def persistWarnings (v result : Uuid) : List (String × String) → IngestionProg Unit
  | [] => return ()
  | (code, message) :: rest => do
    execute (.insertContent v (.warning ⟨result, code, message⟩))
    persistWarnings v result rest

/-- Create the candidates. -/
def createCandidates (v : Uuid) : List CandidateInput → IngestionProg Unit
  | [] => return ()
  | input :: rest => do
    createCandidate v input
    createCandidates v rest

/-- Everything that a parse leaves behind for the version. -/
def persistContent (v : Uuid) (output : CanonicalExtractionOutput) : IngestionProg Unit := do
  let pageMap ← persistPages v output.pages
  persistChunks v pageMap output.chunks
  let resultId ← uuid4
  execute (.insertContent v
    (.result ⟨resultId, output.parserName, output.parserVersion, output.status⟩))
  persistWarnings v resultId output.warnings
  if output.status = "COMPLETED" ∨ output.status = "COMPLETED_WITH_WARNINGS" then
    let candidates ← call (·.candidates)
    createCandidates v candidates

/-- The outcome of a parse with the status. -/
def outcomeOf (status : String) : WorkerOutcomeStatus :=
  if status = "AWAITING_REVIEW" then .processedReviewRequired
  else if status = "REJECTED" then .processedRejected
  else if status = "FAILED" then .processedFailed
  else .processedSuccess

/-- The `try` block of `_process_claimed_job`: the stored file is parsed, and what
the parser found is committed with the status of job and version. -/
def parseAndPersist (c : ClaimedJob) (v attemptId : Uuid) :
    IngestionProg WorkerOutcomeStatus := do
  let output ← call (·.output)
  match IngestionStatus.validParserStatusMap output.status with
  | none => .raise (.raised { text := "UNKNOWN_PARSER_STATUS" })
  | some targetStatus =>
    persistContent v output
    execute (.updateAttempt c.jobId attemptId fun a => { a with status := targetStatus })
    transitionJob c.jobId .parsing targetStatus c.organizationId
    transitionVersion v .parsing targetStatus c.organizationId
    execute (.updateVersion v fun version => { version with extractionStatus := output.status })
    recordEvent
    commit
    return outcomeOf output.status

/-- The job gets the status, if it has another one. -/
def moveJob (j : Uuid) (job : IngestionJob) (nextStatus : IngestionStatus) : IngestionProg Unit :=
  if job.status ≠ nextStatus then transitionJob j job.status nextStatus job.organizationId
  else return ()

/-- The version gets the status, if it has another one. -/
def moveVersion (v organizationId : Uuid) (current nextStatus : IngestionStatus) :
    IngestionProg Unit :=
  if current ≠ nextStatus then transitionVersion v current nextStatus organizationId
  else return ()

/-- The end of a failed attempt for the job: its status, and the attempt. -/
def failJob (j : Uuid) (r : IngestionRows) (nextStatus : IngestionStatus) (attemptNumber : ℕ)
    (err : IngestionExc) : IngestionProg Unit := do
  moveJob j r.job nextStatus
  execute (.updateJob j fun job => { job with currentAttempt := attemptNumber })
  let id ← uuid4
  let (code, message) := errorReport err
  execute (.insertAttempt j ⟨id, attemptNumber, .failed, some code, some message⟩)

/-- The end of a failed attempt for the version, if it is there. -/
def failVersion (job : IngestionJob) (nextStatus : IngestionStatus) : IngestionProg Unit := do
  let d ← select
  match (d.versions job.documentVersionId).filter fun x =>
      x.version.organizationId == job.organizationId with
  | none => return ()
  | some x =>
    moveVersion job.documentVersionId job.organizationId x.version.ingestionStatus nextStatus
    execute (.updateVersion job.documentVersionId fun version =>
      { version with extractionStatus := "FAILED" })

/-- The `except` block: after a rollback, the failure is recorded if the claim is
still the worker's, and the job is queued again or fails. -/
def recordFailure (c : ClaimedJob) (attemptNumber : ℕ) (err : IngestionExc) :
    IngestionProg WorkerOutcomeStatus := do
  rollback
  match ← lockJob c.jobId fun _ => true with
  | none => return .staleClaimAborted
  | some r =>
    if !owned c r.job then
      return .staleClaimAborted
    else
      let nextStatus : IngestionStatus :=
        if attemptNumber < r.job.maxAttempts then .queued else .failed
      failJob c.jobId r nextStatus attemptNumber err
      failVersion r.job nextStatus
      recordEvent
      commit
      return .processedFailed

/-- The end of an attempt on a job whose version is missing. -/
def failMissingVersion (c : ClaimedJob) (attemptId : Uuid) : IngestionProg WorkerOutcomeStatus := do
  transitionJob c.jobId .parsing .failed c.organizationId
  execute (.updateAttempt c.jobId attemptId fun a =>
    { a with
      status := .failed
      errorCode := some "DOCUMENT_VERSION_NOT_FOUND"
      errorMessage := some "Associated DocumentVersion record was not found." })
  commit
  return .processedFailed

/-- The job is being parsed, if it was not already. -/
def startParsing (c : ClaimedJob) (job : IngestionJob) : IngestionProg Unit :=
  if job.status ≠ .parsing then transitionJob c.jobId .queued .parsing c.organizationId
  else return ()

/-- The begin of an attempt: the status of the job, its counter and the row of the
attempt. -/
def beginAttempt (c : ClaimedJob) (r : IngestionRows) : IngestionProg Uuid := do
  startParsing c r.job
  let attemptNumber := r.job.currentAttempt + 1
  execute (.updateJob c.jobId fun job => { job with currentAttempt := attemptNumber })
  let attemptId ← uuid4
  execute (.insertAttempt c.jobId ⟨attemptId, attemptNumber, .parsing, none, none⟩)
  recordEvent
  return attemptId

/-- `_process_claimed_job`. -/
def processClaimedJob (c : ClaimedJob) : IngestionProg WorkerOutcomeStatus := do
  note (.processing c)
  match ← lockJobSkip c.jobId fun job =>
      owned c job && (job.status == .queued || job.status == .parsing) with
  | none => return .staleClaimAborted
  | some r =>
    note (.parsing c (r.job.currentAttempt + 1))
    let attemptId ← beginAttempt c r
    let d ← select
    match (d.versions r.job.documentVersionId).filter fun x =>
        x.version.organizationId == c.organizationId with
    | none => failMissingVersion c attemptId
    | some _ =>
      transitionVersion r.job.documentVersionId .queued .parsing c.organizationId
      (parseAndPersist c r.job.documentVersionId attemptId).tryCatch
        (recordFailure c (r.job.currentAttempt + 1))

/-- A worker id that is refused: blank or too long. -/
def invalidWorkerId (w : String) : Bool := w.toList.all Char.isWhitespace || 255 < w.length

/-- `claim_and_process_envelope`, in a transaction that may have begun with the
fetch of the job. -/
def claimAndProcessEnvelope (begun : Option ℕ) (envelope : IngestionCommandEnvelope) (w : String)
    (claimToken : Uuid) : IngestionProg WorkerOutcomeStatus := do
  if invalidWorkerId w then
    Prog.raise (.raised { text := "CRITICAL_SECURITY_VIOLATION: Invalid worker ID" })
  else
    let error ← Prog.ask fun i => .ret i.envelopeError
    match error with
    | some _ => return .rejected
    | none =>
      note (.claiming envelope.jobId)
      let d ← select
      match ← claimIngestionJob (begun.getD d.now) envelope.jobId w claimToken with
      | none =>
        commit
        return .noJobClaimed
      | some c =>
        let logged ← Prog.write (.insertCommandLog
          ⟨envelope.commandId, c.jobId, c.organizationId, envelope.idempotencyKey⟩) .ret
        if !logged then
          rollback
          return .rejected
        else
          commit
          processClaimedJob c

/-- One round of `run_worker_loop`: `fetch_and_sign_next_envelope` and the
processing of the envelope, on one session. -/
def poll (w : String) (claimToken : Uuid) : IngestionProg Unit := do
  let d ← select
  match fetchNextQueuedIngestionJob 15 d.now d.jobRows with
  | none => return ()
  | some j =>
    let commandId ← uuid4
    let idempotencyKey ← Prog.ask fun i => .ret i.hex
    let _ ← claimAndProcessEnvelope (some d.now) ⟨j, commandId, idempotencyKey⟩ w claimToken

end IngestionWorker

/-! ## Uploads -/

namespace DocumentsRouter

open IngestionProg

/-- The `try` block of `finalize_upload`, from the rows of the new version on. -/
def insertUpload (organizationId documentId : Uuid) (declaredMimeType detectedMimeType : String) :
    IngestionProg Unit := do
  let v ← uuid4
  execute (.createVersion v
    { id := v
      organizationId, documentId, declaredMimeType, detectedMimeType
      ingestionStatus := .queued
      extractionStatus := "NOT_STARTED" })
  let j ← uuid4
  let d ← select
  execute (.createJob j
    { organizationId
      documentVersionId := v
      status := .queued
      currentAttempt := 0
      maxAttempts := 3
      createdAt := d.now })
  recordEvent
  commit

/-- `finalize_upload`. -/
def finalizeUpload (organizationId documentId : Uuid) (declaredMimeType detectedMimeType : String) :
    IngestionProg Unit :=
  (insertUpload organizationId documentId declaredMimeType detectedMimeType).tryCatch fun err => do
    rollback
    Prog.raise err

end DocumentsRouter

/-- A call that a process serves; what `uuid4()` returns for the claim token comes
with the call. -/
inductive IngestionCall where
  | finalizeUpload (organizationId documentId : Uuid) (declaredMimeType detectedMimeType : String)
  | claimAndProcessEnvelope (envelope : IngestionCommandEnvelope) (worker : String)
    (claimToken : Uuid)
  | poll (worker : String) (claimToken : Uuid)

/-- The ingestion plane: the calls, and time passing. -/
def ingestionModel : Model IngestionRow IngestionStmt IngestionAnswer IngestionMark IngestionDb
    IngestionExc IngestionCall ℕ where
  schema := ingestionSchema
  body
    | .finalizeUpload organizationId documentId declared detected =>
      DocumentsRouter.finalizeUpload organizationId documentId declared detected
    | .claimAndProcessEnvelope envelope w claimToken => do
      let _ ← IngestionWorker.claimAndProcessEnvelope none envelope w claimToken
    | .poll w claimToken => IngestionWorker.poll w claimToken
  env seconds d := { d with now := d.now + seconds }

/-- Nothing was uploaded yet. -/
def emptyIngestionDb (now : ℕ) : IngestionDb := ⟨now, [], fun _ => none, fun _ => none, []⟩

end FinanceIntelligence
