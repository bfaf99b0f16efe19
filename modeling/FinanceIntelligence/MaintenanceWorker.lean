import FinanceIntelligence.LeaseRecovery
import FinanceIntelligence.Transaction
import Mathlib.Data.List.Sort

/-!
# The maintenance worker

`claim_next_maintenance_job` and `claim_and_process_maintenance_job`: the claim, the
handler and the end of the job run on one session. What a handler does to the
session is an outcome that comes from outside: it may commit, which ends the
transaction that binds the tenant, and it may meet a database error, which leaves
the transaction unusable.
-/

namespace FinanceIntelligence

/-! ## Rows -/

/-- A status of a maintenance job. -/
inductive MaintenanceStatus where
  | queued
  | running
  | completed
  | failed
deriving DecidableEq, Repr

/-- `maintenance_jobs`. -/
structure MaintenanceJob where
  jobCode : String
  organizationId : Uuid
  status : MaintenanceStatus
  availableAt : ℕ
  lockedBy : Option String := none
  leaseExpiresAt : Option ℕ := none
  claimToken : Option Uuid := none
  attemptCount : ℕ := 0
  maxAttempts : ℕ := 3
  lastErrorCode : Option String := none

/-- The database, and the clock its functions read. -/
structure MaintenanceDb where
  /-- `now()` -/
  now : ℕ
  /-- the ids of the jobs, in the order of a scan -/
  jobIds : List Uuid
  jobs : Uuid → Option MaintenanceJob

/-- `UPDATE maintenance_jobs` of one row. -/
inductive MaintenanceStmt where
  | updateJob (id : Uuid) (set : MaintenanceJob → MaintenanceJob)

/-- The schema: a statement changes its row, and `chk_maintenance_job_attempts` must
hold of the new one. -/
def maintenanceSchema : Schema Uuid MaintenanceStmt MaintenanceDb where
  apply
    | .updateJob j set, d => { d with jobs := Function.update d.jobs j ((d.jobs j).map set) }
  target
    | .updateJob j _ => some j
  check
    | .updateJob j set, d => (d.jobs j).all fun job => 0 < (set job).maxAttempts

/-! ## Outcomes of a handler -/

/-- How a handler ends. -/
inductive HandlerEnd where
  /-- it returns `True` -/
  | returned
  /-- it raises, and the transaction can go on -/
  | raised
  /-- the database refuses a statement -/
  | databaseError
deriving DecidableEq, Repr

/-- What a handler does to its session. -/
structure HandlerRun where
  commits : Bool
  /-- how it ends -/
  ending : HandlerEnd
deriving DecidableEq, Repr

/-- `process_clarification_expiry`, as `expire_due_clarifications` returns a number:
it has committed if that is not zero. -/
def processClarificationExpiry (expired : ℕ) : HandlerRun := ⟨0 < expired, .returned⟩

/-- The run of `process_analysis_lease_recovery`. -/
def leaseRecoveryRun {α : Type} : Except SqlError α → HandlerRun
  | .ok _ => ⟨true, .returned⟩
  | .error _ => ⟨false, .databaseError⟩

/-- With the table of the migrations every recovery of leases is a database error. -/
theorem leaseRecoveryRun_eq (orgId : Uuid) (now : ℤ) (locked : SqlRow → Bool)
    (rows : List SqlRow) :
    leaseRecoveryRun (processAnalysisLeaseRecovery analysisJobs orgId now locked rows) =
      ⟨false, .databaseError⟩ := by
  rw [processAnalysisLeaseRecovery_eq]
  rfl

/-! ## The worker -/

/-- An answer from outside. -/
structure MaintenanceAnswer where
  /-- what the handler does -/
  handler : HandlerRun

/-- What a process notes: the job whose handler it calls, and how that went. -/
inductive MaintenanceMark where
  | handling (job : Uuid)
  | ended (job : Uuid) (run : HandlerRun)
deriving DecidableEq

/-- The exceptions of the worker. -/
inductive MaintenanceExc where
  /-- `Invalid p_worker_id` -/
  | invalidWorkerId
  /-- a statement in a transaction that has failed -/
  | inFailedTransaction
  /-- a constraint of the database -/
  | constraint

/-- A program on the maintenance tables. -/
abbrev MaintenanceProg :=
  Prog Uuid MaintenanceStmt MaintenanceAnswer MaintenanceMark MaintenanceDb MaintenanceExc

/-- `MaintenanceOutcomeStatus`. -/
inductive MaintenanceOutcomeStatus where
  | processedSuccess
  | processedFailed
  | noJobsFound
  | notImplemented

namespace MaintenanceWorker

/-- `ALLOWED_JOB_CODES`. -/
def allowedJobCodes : List String := ["CLARIFICATION_EXPIRY", "ANALYSIS_LEASE_RECOVERY"]

/-- A worker id that is refused. -/
def invalidWorkerId (w : String) : Bool := w.toList.all (· == ' ') || 100 < w.length

/-- The condition of `claim_next_maintenance_job`. -/
def claimable (now : ℕ) (job : MaintenanceJob) : Bool :=
  allowedJobCodes.contains job.jobCode &&
    (job.status == .queued || job.status == .running && job.leaseExpiresAt.any (· < now)) &&
    (job.availableAt ≤ now && job.attemptCount < job.maxAttempts)

/-- The jobs that can be claimed, those available first in front. The owner of the
function sees none of them if row-level security applies to it. -/
def claimQueue (ownerBypassesRls : Bool) (now : ℕ) (d : MaintenanceDb) : List Uuid :=
  if ownerBypassesRls then
    (d.jobIds.filter fun j => (d.jobs j).any (claimable now)).insertionSort fun i j =>
      (d.jobs i).elim 0 (·.availableAt) ≤ (d.jobs j).elim 0 (·.availableAt)
  else []

/-- The job row handed to the worker `w`. -/
def handOut (w : String) (claimToken : Uuid) (now : ℕ) (job : MaintenanceJob) : MaintenanceJob :=
  { job with
    status := .running
    lockedBy := some w
    leaseExpiresAt := some (now + 300)
    claimToken := some claimToken
    attemptCount := job.attemptCount + 1 }

/-- A writing statement; a failing constraint is an exception. -/
def execute (s : MaintenanceStmt) : MaintenanceProg Unit :=
  Prog.write s fun ok => if ok then .ret () else .raise .constraint

/-- Commit. -/
def commit : MaintenanceProg Unit :=
  Prog.commit fun failed =>
    match failed with
    | none => .ret ()
    | some _ => .raise .constraint

/-- `claim_next_maintenance_job`. -/
def claimNextMaintenanceJob (ownerBypassesRls : Bool) (w : String) (claimToken : Uuid) :
    MaintenanceProg (Option (Uuid × MaintenanceJob)) :=
  if invalidWorkerId w then .raise .invalidWorkerId
  else
    .read fun d => .lockSkip (claimQueue ownerBypassesRls d.now) 1 fun l =>
      match l with
      | [] => .ret none
      | j :: _ => do
        execute (.updateJob j (handOut w claimToken d.now))
        let d ← Prog.read .ret
        return (d.jobs j).map fun job => (j, job)

/-- The handler's own commit. -/
def handlerCommit (run : HandlerRun) : MaintenanceProg Unit :=
  if run.commits then commit else return ()

/-- `UPDATE … WHERE id = j AND locked_by = w AND claim_token = token`. Row-level
security hides the row when the tenant is no longer bound. -/
def updateOwn (bound : Bool) (w : String) (claimToken j : Uuid)
    (set : MaintenanceJob → MaintenanceJob) : MaintenanceProg Unit :=
  .lock j (fun d => bound && (d.jobs j).any fun job =>
      job.lockedBy == some w && job.claimToken == some claimToken) fun found =>
    if found then execute (.updateJob j set) else return ()

/-- What is set when the handler has returned. -/
def setCompleted (job : MaintenanceJob) : MaintenanceJob := { job with status := .completed }

/-- What is set when the handler has raised. -/
def setFailed (job : MaintenanceJob) : MaintenanceJob :=
  { job with
    status := .failed
    lastErrorCode := some "HANDLER_EXCEPTION" }

/-- The end of the job, on the session that the handler leaves. -/
def closeJob (w : String) (claimToken j : Uuid) (run : HandlerRun) :
    MaintenanceProg MaintenanceOutcomeStatus :=
  match run.ending with
  | .returned => do
    updateOwn (!run.commits) w claimToken j setCompleted
    commit
    return .processedSuccess
  | .raised => do
    updateOwn (!run.commits) w claimToken j setFailed
    commit
    return .processedFailed
  | .databaseError => .raise .inFailedTransaction

/-- The handler of the job, and the end of the job. -/
def processJob (w : String) (claimToken j : Uuid) (job : MaintenanceJob) :
    MaintenanceProg MaintenanceOutcomeStatus := do
  if job.jobCode = "CLARIFICATION_EXPIRY" ∨ job.jobCode = "ANALYSIS_LEASE_RECOVERY" then
    Prog.note (.handling j) (.ret ())
    let run ← Prog.ask fun i => .ret i.handler
    handlerCommit run
    Prog.note (.ended j run) (.ret ())
    closeJob w claimToken j run
  else
    return .notImplemented

/-- `claim_and_process_maintenance_job`. -/
def claimAndProcessMaintenanceJob (ownerBypassesRls : Bool) (w : String) (claimToken : Uuid) :
    MaintenanceProg MaintenanceOutcomeStatus := do
  match ← claimNextMaintenanceJob ownerBypassesRls w claimToken with
  | none => return .noJobsFound
  | some (j, job) => processJob w claimToken j job

end MaintenanceWorker

/-- One round of `run_maintenance_worker_loop`; what `uuid4()` returns for the claim
token comes with the call. -/
structure MaintenanceCall where
  /-- `WORKER_INSTANCE_KEY` -/
  worker : String
  claimToken : Uuid

/-- The maintenance workers, and time passing. -/
def maintenanceModel (ownerBypassesRls : Bool) :
    Model Uuid MaintenanceStmt MaintenanceAnswer MaintenanceMark MaintenanceDb MaintenanceExc
      MaintenanceCall ℕ where
  schema := maintenanceSchema
  body c := do
    let _ ← MaintenanceWorker.claimAndProcessMaintenanceJob ownerBypassesRls c.worker c.claimToken
  env seconds d := { d with now := d.now + seconds }

end FinanceIntelligence
