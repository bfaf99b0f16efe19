import FinanceIntelligence.UploadStore

/-!
# Finalizing uploads and counting references

`finalize_upload` makes an uploaded file a document version: it takes a reference to the immutable
object with the same content, or makes the uploaded file that object. `ReferenceService` gives
references back and recounts them.

Two things of `finalize_upload` happen outside of the transaction: a duplicate's bytes are
deleted after the commit, and those of a failed new object would be after the rollback. But the
rollback expires every row that was loaded, and the handler reads the key of the bytes from the
row of the session. That read raises (`UploadsRouter.expiredTemporaryObjectKey`).
-/

namespace FinanceIntelligence

/-- What is outside of the upload code. -/
structure UploadConfig (B : Type) where
  /-- `sha256(…).hexdigest()` of stored bytes -/
  sha256 : B → String
  /-- the length of stored bytes -/
  size : B → ℕ
  /-- `validate_file_security` of stored bytes, a file name and a declared type: the detected
  type, if it does not raise -/
  validateFileSecurity : B → String → String → Option String
  /-- reading an expired attribute emits its `SELECT` on the spot; a session of
  `sqlalchemy.ext.asyncio` raises `MissingGreenlet` instead -/
  implicitIo : Bool

/-- An answer from outside the store. -/
structure UploadAnswer where
  /-- `uuid4()` -/
  uuid : Uuid := 0
  /-- `datetime.now(UTC)` -/
  now : ℕ := 0
  /-- the callee raised -/
  fails : Bool := false

/-- The exceptions of the upload code. -/
inductive UploadExc where
  /-- `HTTPException`, or an API exception with its code as the detail -/
  | http (statusCode : ℕ) (detail : String)
  | invalidStateTransition
  /-- `FileNotFoundError` -/
  | fileNotFound
  | missingGreenlet
  /-- `ObjectDeletedError`: an expired row is not found again -/
  | objectDeleted
  /-- a constraint of the database -/
  | constraint (s : UploadStmt)
  /-- an exception of a callee outside the model -/
  | outside

/-- A call notes that it is about to count the versions of an object. -/
inductive UploadMark where
  | counting
deriving DecidableEq

/-- A program on the upload tables. -/
abbrev UploadProg (B : Type) :=
  Prog UploadRow UploadStmt UploadAnswer UploadMark (UploadDb B) UploadExc

namespace UploadProg

variable {B : Type}

/-- A callee outside the model, or the connection to the database, which may fail. -/
def attempt : UploadProg B Unit := .ask fun i => if i.fails then .raise .outside else .ret ()

/-- `datetime.now(UTC)`. -/
def now : UploadProg B ℕ := .ask fun i => .ret i.now

/-- A fresh identifier. -/
def uuid4 : UploadProg B Uuid := .ask fun i => .ret i.uuid

/-- A writing statement. -/
def execute (s : UploadStmt) : UploadProg B Unit :=
  attempt.bind fun _ => Prog.write s fun ok => if ok then .ret () else .raise (.constraint s)

/-- Commit: it goes through, or raises without effect. -/
def commit : UploadProg B Unit :=
  attempt.bind fun _ => Prog.commit fun failed =>
    match failed with
    | none => .ret ()
    | some s => .raise (.constraint s)

/-- Drop what is pending. -/
def rollback : UploadProg B Unit := Prog.rollback (.ret ())

/-- `AuditService.record_event`: a row that nothing here reads. -/
def recordEvent : UploadProg B Unit := attempt

/-- `SELECT … FOR UPDATE` of a session. -/
def lockSession (organizationId id : Uuid) : UploadProg B (Option UploadSession) :=
  attempt.bind fun _ =>
    .lock (.session id) (fun d => (d.sessions id).any (·.organizationId == organizationId))
      fun found => if found then .read fun d => .ret (d.sessions id) else .ret none

/-- `SELECT … FOR UPDATE` of the object with a hash. -/
def lockObjectOf (organizationId : Uuid) (sha256 : String) : UploadProg B (Option StoredObject) :=
  attempt.bind fun _ =>
    .lock (.object organizationId sha256) (fun d => (d.objectOf organizationId sha256).isSome)
      fun found =>
        if found then .read fun d => .ret (d.objectOf organizationId sha256) else .ret none

/-- `SELECT … FOR UPDATE` of the object with an id. The query finds the row, waits for its lock
and looks at it again. -/
def lockObject (organizationId id : Uuid) : UploadProg B (Option StoredObject) :=
  attempt.bind fun _ => .read fun d =>
    match d.object organizationId id with
    | none => .ret none
    | some o =>
      .lock (.object o.organizationId o.serverComputedSha256)
        (fun d => (d.object organizationId id).isSome)
        fun found => if found then .read fun d => .ret (d.object organizationId id) else .ret none

/-- `SELECT … FOR UPDATE` of a version. -/
def lockVersion (organizationId id : Uuid) : UploadProg B (Option UploadedVersion) :=
  attempt.bind fun _ =>
    .lock (.version id) (fun d => (d.version organizationId id).isSome)
      fun found => if found then .read fun d => .ret (d.version organizationId id) else .ret none

/-- Read stored bytes. -/
def getObject (organizationId : Uuid) (key : String) : UploadProg B B :=
  attempt.bind fun _ => .read fun d =>
    match d.storage organizationId key with
    | none => .raise .fileNotFound
    | some bytes => .ret bytes

/-- `adapter.delete_object`. No transaction is open, so that it takes effect at once. -/
def deleteObject (organizationId : Uuid) (key : String) : UploadProg B Unit := do
  execute (.deleteObject organizationId key)
  commit

end UploadProg

open UploadProg

/-! ## References -/

namespace ReferenceService

variable {B : Type}

/-- `create_or_acquire`: the object, and whether it was there under another key. -/
def createOrAcquire (organizationId : Uuid) (sha256 opaqueKey : String) (byteSize : ℕ)
    (detectedMime : String) : UploadProg B (StoredObject × Bool) := do
  let id ← uuid4
  execute (.upsertObject
    { id, organizationId, opaqueObjectKey := opaqueKey, byteSize, serverComputedSha256 := sha256
      detectedMimeType := detectedMime, referenceCount := 1 })
  match ← lockObjectOf organizationId sha256 with
  | none => .raise .outside
  | some storedObject => return (storedObject, storedObject.opaqueObjectKey != opaqueKey)

/-- `release_reference`. -/
def releaseReference (organizationId storedObjectId : Uuid) : UploadProg B ℕ := do
  match ← lockObject organizationId storedObjectId with
  | none => .raise (.http 404 "STORED_OBJECT_NOT_FOUND")
  | some obj =>
    if obj.referenceCount ≤ 0 then .raise (.http 400 "INVALID_REFERENCE_COUNT")
    else do
      execute (.setReferenceCount obj (obj.referenceCount - 1))
      return obj.referenceCount - 1

/-- `reconcile`: the versions are counted before the object is locked. -/
def reconcile (organizationId storedObjectId : Uuid) : UploadProg B ℕ :=
  .note .counting do
    attempt
    let activeCount ← Prog.read fun d => .ret (d.activeCount organizationId storedObjectId)
    match ← lockObject organizationId storedObjectId with
    | none => .raise (.http 404 "STORED_OBJECT_NOT_FOUND")
    | some obj =>
      execute (.setReferenceCount obj activeCount)
      return activeCount

/-- `is_eligible_for_deletion`. -/
def isEligibleForDeletion (d : UploadDb B) (organizationId storedObjectId : Uuid) : Bool :=
  (d.object organizationId storedObjectId).any fun obj =>
    obj.referenceCount == 0 && obj.retentionStatus == "EXPIRED"

end ReferenceService

/-! ## Uploads -/

namespace StateMachineService

variable {B : Type}

/-- `transition_upload_session`. -/
def transitionUploadSession (sessionId : Uuid) (expected target : UploadStatus)
    (organizationId : Uuid) : UploadProg B Unit := do
  match ← lockSession organizationId sessionId with
  | none => .raise (.http 404 "UPLOAD_SESSION_NOT_FOUND")
  | some session =>
    if session.status ≠ expected ∨ target ∉ session.status.sessionTransitions then
      .raise .invalidStateTransition
    else do
      execute (.setSessionStatus sessionId target)
      recordEvent

end StateMachineService

namespace UploadsRouter

open ReferenceService StateMachineService

variable {B : Type} (cfg : UploadConfig B)

/-- `session.temporary_object_key` after a rollback, which has expired the row. If the driver can
load it again, it does so in a new transaction. The tenant was set for the one that was rolled
back, and the row-level security of `upload_sessions` shows no row without a tenant. -/
def expiredTemporaryObjectKey (session : UploadSession) : UploadProg B (Option String) :=
  if cfg.implicitIo then
    .read fun d =>
      match d.sessionUnder none session.id with
      | none => .raise .objectDeleted
      | some row => .ret row.temporaryObjectKey
  else .raise .missingGreenlet

/-- The exception handler, with `is_deduplicated` as it finds it. -/
def compensate (session : UploadSession) (organizationId : Uuid) (isDeduplicated : Bool)
    (err : UploadExc) : UploadProg B Unit := do
  rollback
  if isDeduplicated then .raise err
  else
    let key ← expiredTemporaryObjectKey cfg session
    match key.filter (· ≠ "") with
    | none => .raise err
    | some key =>
      -- what the deletion raises is dropped
      (deleteObject organizationId key).tryCatch fun _ => .ret ()
      .raise err

/-- The rows of an upload: from the document to the commit, and the deletion of a duplicate. -/
def insertUpload (session : UploadSession) (organizationId user : Uuid) (key hash : String)
    (fileSize : ℕ) (detectedMime : String) (storedObject : StoredObject) (isDeduplicated : Bool) :
    UploadProg B Unit := do
  let documentId ← uuid4
  execute (.insertDocument
    { id := documentId, organizationId, uploadedByUserId := user
      displayName := session.sanitizedFilename, classification := session.classification })
  let versionId ← uuid4
  execute (.insertVersion
    { id := versionId, organizationId, documentId, storedObjectId := storedObject.id
      contentHashSha256 := hash, fileSizeBytes := fileSize
      declaredMimeType := session.declaredMimeType, detectedMimeType := detectedMime })
  let jobId ← uuid4
  execute (.insertJob { id := jobId, organizationId, documentVersionId := versionId })
  transitionUploadSession session.id .uploaded .finalized organizationId
  -- DUPLICATE_DETECTED, FINALIZE_COMPLETED and INGESTION_QUEUED
  if isDeduplicated then recordEvent else pure ()
  recordEvent
  recordEvent
  -- `FactExtractionService.ensure_reference_data`
  attempt
  commit
  if isDeduplicated then deleteObject organizationId key else pure ()

/-- `finalize_upload`. -/
def finalizeUpload (organizationId sessionId user : Uuid) : UploadProg B Unit := do
  match ← lockSession organizationId sessionId with
  | none => .raise (.http 404 "Upload session not found.")
  | some session =>
    if session.status = .finalized ∨ session.status = .expired then
      .raise (.http 400 ("Upload session is already in terminal state '" ++
        session.status.value ++ "'."))
    else
      let t ← now
      if session.expiresAt < t then
        transitionUploadSession session.id session.status .expired organizationId
        commit
        .raise (.http 400 "Upload session has expired.")
      else
        match session.temporaryObjectKey.filter (· ≠ "") with
        | none => .raise (.http 400 "Upload session has no associated temporary object.")
        | some key =>
          let bytes ← getObject organizationId key
          let hash := cfg.sha256 bytes
          if (session.serverComputedSha256.filter (· ≠ "")).any (· ≠ hash) then
            recordEvent
            .raise (.http 400 "UPLOAD_INTEGRITY_FAILED")
          else
            let sample ← getObject organizationId key
            match cfg.validateFileSecurity sample session.sanitizedFilename
                session.declaredMimeType with
            | none => .raise .outside
            | some detectedMime =>
              -- until `create_or_acquire` returns, `is_deduplicated` is false
              let acquired ← (createOrAcquire organizationId hash key (cfg.size bytes)
                detectedMime).tryCatch fun err =>
                  (compensate cfg session organizationId false err).bind fun _ => .raise err
              (insertUpload session organizationId user key hash (cfg.size bytes) detectedMime
                acquired.1 acquired.2).tryCatch
                  (compensate cfg session organizationId acquired.2)

end UploadsRouter

/-- A call that a process serves. A version is released in one transaction with its row. -/
inductive UploadCall where
  | finalizeUpload (organizationId sessionId user : Uuid)
  | releaseVersion (organizationId versionId : Uuid)
  | reconcile (organizationId storedObjectId : Uuid)

/-- A version is deleted, and its reference given back. -/
def releaseVersion {B : Type} (organizationId versionId : Uuid) : UploadProg B Unit := do
  match ← lockVersion organizationId versionId with
  | none => .raise (.http 404 "DOCUMENT_VERSION_NOT_FOUND")
  | some v =>
    execute (.deleteVersion v.id)
    let _ ← ReferenceService.releaseReference organizationId v.storedObjectId
    commit

/-- Any number of calls at work. -/
def uploadModel {B : Type} (cfg : UploadConfig B) :
    Model UploadRow UploadStmt UploadAnswer UploadMark (UploadDb B) UploadExc UploadCall Empty where
  schema := uploadSchema B
  body
    | .finalizeUpload org session user => UploadsRouter.finalizeUpload cfg org session user
    | .releaseVersion org version => releaseVersion org version
    | .reconcile org object => do
      let _ ← ReferenceService.reconcile org object
      commit
  env := nofun

end FinanceIntelligence
