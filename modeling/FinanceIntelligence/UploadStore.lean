import FinanceIntelligence.RelyGuarantee
import FinanceIntelligence.RequestPlan

/-!
# Uploads: the rows and the stored bytes

Upload sessions, the immutable objects that they become, and the document versions that refer to
an object. The object storage stands beside the tables: it has no transactions, and nothing in
it is locked.
-/

namespace FinanceIntelligence

/-- The status of an upload session. -/
inductive UploadStatus where
  | pendingUpload
  | uploaded
  | finalized
  | expired
  | failed
deriving DecidableEq, Repr

namespace UploadStatus

/-- The text of a status. -/
def value : UploadStatus → String
  | pendingUpload => "PENDING_UPLOAD"
  | uploaded => "UPLOADED"
  | finalized => "FINALIZED"
  | expired => "EXPIRED"
  | failed => "FAILED"

/-- `SESSION_TRANSITIONS`. -/
def sessionTransitions : UploadStatus → List UploadStatus
  | pendingUpload => [uploaded, failed, expired]
  | uploaded => [finalized, failed, expired]
  | finalized | expired | failed => []

end UploadStatus

/-! ## Rows -/

/-- `upload_sessions`. -/
structure UploadSession where
  id : Uuid
  organizationId : Uuid
  sanitizedFilename : String
  declaredMimeType : String
  classification : String
  serverComputedSha256 : Option String
  status : UploadStatus
  temporaryObjectKey : Option String
  expiresAt : ℕ
deriving DecidableEq

/-- `stored_objects`. -/
structure StoredObject where
  id : Uuid
  organizationId : Uuid
  opaqueObjectKey : String
  byteSize : ℕ
  serverComputedSha256 : String
  detectedMimeType : String
  retentionStatus : String := "ACTIVE"
  referenceCount : ℕ
deriving DecidableEq

/-- Two objects of one organization with one hash. -/
def StoredObject.sameContent (o x : StoredObject) : Bool :=
  x.organizationId == o.organizationId && x.serverComputedSha256 == o.serverComputedSha256

/-- `documents`. -/
structure UploadedDocument where
  id : Uuid
  organizationId : Uuid
  uploadedByUserId : Uuid
  displayName : String
  classification : String

/-- `document_versions`. -/
structure UploadedVersion where
  id : Uuid
  organizationId : Uuid
  documentId : Uuid
  storedObjectId : Uuid
  contentHashSha256 : String
  fileSizeBytes : ℕ
  declaredMimeType : String
  detectedMimeType : String
deriving DecidableEq

/-- `ingestion_jobs`, as they are queued. -/
structure QueuedJob where
  id : Uuid
  organizationId : Uuid
  documentVersionId : Uuid

/-- The contents: the tables, and the object storage with the bytes `B`. -/
structure UploadDb (B : Type) where
  /-- `upload_sessions`, by id -/
  sessions : Uuid → Option UploadSession
  /-- `stored_objects`, in insertion order -/
  objects : List StoredObject
  /-- `documents`, in insertion order -/
  documents : List UploadedDocument
  /-- `document_versions`, in insertion order -/
  versions : List UploadedVersion
  /-- `ingestion_jobs`, in insertion order -/
  jobs : List QueuedJob
  /-- the object storage: the bytes of a tenant under a key -/
  storage : Uuid → String → Option B

namespace UploadDb

variable {B : Type} (d : UploadDb B)

/-- The object of an organization with a hash. -/
def objectOf (organizationId : Uuid) (sha256 : String) : Option StoredObject :=
  d.objects.find? fun o =>
    o.organizationId == organizationId && o.serverComputedSha256 == sha256

/-- The object of an organization with an id. -/
def object (organizationId id : Uuid) : Option StoredObject :=
  d.objects.find? fun o => o.id == id && o.organizationId == organizationId

/-- The version of an organization with an id. -/
def version (organizationId id : Uuid) : Option UploadedVersion :=
  d.versions.find? fun v => v.id == id && v.organizationId == organizationId

/-- The session with an id, as `tenant_isolation_policy` shows it to a tenant. -/
def sessionUnder (tenant : Option Uuid) (id : Uuid) : Option UploadSession :=
  (d.sessions id).filter fun row => tenant == some row.organizationId

/-- How many versions refer to an object. -/
def versionCount (id : Uuid) : ℕ := d.versions.countP fun v => v.storedObjectId == id

/-- How many versions of an organization refer to an object. -/
def activeCount (organizationId id : Uuid) : ℕ :=
  d.versions.countP fun v => v.storedObjectId == id && v.organizationId == organizationId

end UploadDb

/-! ## Statements -/

/-- The rows that are locked. An object is locked through its entry in the unique index, for
which an insertion waits too. -/
inductive UploadRow where
  | session (id : Uuid)
  | object (organizationId : Uuid) (sha256 : String)
  | version (id : Uuid)
deriving DecidableEq

/-- The writing statements. -/
inductive UploadStmt where
  /-- `INSERT … ON CONFLICT (organization_id, server_computed_sha256) DO UPDATE` -/
  | upsertObject (o : StoredObject)
  | setReferenceCount (o : StoredObject) (n : ℕ)
  | insertDocument (document : UploadedDocument)
  | insertVersion (v : UploadedVersion)
  | deleteVersion (id : Uuid)
  | insertJob (job : QueuedJob)
  | setSessionStatus (id : Uuid) (status : UploadStatus)
  /-- not a statement: the storage loses the bytes under a key -/
  | deleteObject (organizationId : Uuid) (key : String)

namespace UploadStmt

variable {B : Type}

/-- The objects after an insertion that adds one to the count on a conflict. -/
def upserted (o : StoredObject) (l : List StoredObject) : List StoredObject :=
  if l.any o.sameContent then
    l.map fun x => if o.sameContent x then { x with referenceCount := x.referenceCount + 1 } else x
  else l ++ [o]

/-- The objects after the count of one of them is set. -/
def recounted (o : StoredObject) (n : ℕ) (l : List StoredObject) : List StoredObject :=
  l.map fun x => if x.id = o.id then { x with referenceCount := n } else x

/-- The effect of a statement. -/
def apply : UploadStmt → UploadDb B → UploadDb B
  | .upsertObject o, d => { d with objects := upserted o d.objects }
  | .setReferenceCount o n, d => { d with objects := recounted o n d.objects }
  | .insertDocument document, d => { d with documents := d.documents ++ [document] }
  | .insertVersion v, d => { d with versions := d.versions ++ [v] }
  | .deleteVersion id, d => { d with versions := d.versions.filter fun v => v.id != id }
  | .insertJob job, d => { d with jobs := d.jobs ++ [job] }
  | .setSessionStatus id status, d =>
    { d with
      sessions := fun i =>
        if i = id then (d.sessions i).map fun row => { row with status := status }
        else d.sessions i }
  | .deleteObject organizationId key, d =>
    { d with
      storage := fun org k => if org = organizationId ∧ k = key then none else d.storage org k }

/-- The row of a statement. -/
def target : UploadStmt → Option UploadRow
  | .upsertObject o | .setReferenceCount o _ =>
    some (.object o.organizationId o.serverComputedSha256)
  | .deleteVersion id => some (.version id)
  | .insertVersion v => some (.version v.id)
  | .setSessionStatus id _ => some (.session id)
  | .insertDocument _ | .insertJob _ | .deleteObject _ _ => none

/-- The keys and references. -/
def check : UploadStmt → UploadDb B → Bool
  | .upsertObject o, d =>
    d.objects.any o.sameContent ||
      d.objects.all fun x => x.id != o.id && x.opaqueObjectKey != o.opaqueObjectKey
  | .insertDocument document, d => d.documents.all fun x => x.id != document.id
  | .insertVersion v, d =>
    (d.versions.all fun x => x.id != v.id) &&
      (d.documents.any fun x => x.id == v.documentId && x.organizationId == v.organizationId) &&
      d.objects.any fun x => x.id == v.storedObjectId && x.organizationId == v.organizationId
  | .insertJob job, d =>
    (d.jobs.all fun x => x.id != job.id) &&
      d.versions.any fun x =>
        x.id == job.documentVersionId && x.organizationId == job.organizationId
  | .setReferenceCount _ _, _ | .deleteVersion _, _ | .setSessionStatus _ _, _
  | .deleteObject _ _, _ => true

end UploadStmt

/-- The schema of the upload tables. -/
def uploadSchema (B : Type) : Schema UploadRow UploadStmt (UploadDb B) where
  apply := UploadStmt.apply
  target := UploadStmt.target
  check := UploadStmt.check

end FinanceIntelligence
