import FinanceIntelligence.RelyGuarantee
import FinanceIntelligence.RequestPlan
import FinanceIntelligence.QualityGate
import Mathlib.Data.List.Sort

/-!
# The rows of analysis jobs

The tables around `analysis_jobs`, grouped by job: a job row and the rows that
refer to it. Every table has a foreign key to its job, so a statement on any of
them names the job; the lock on the job row is what the writers share.

Identifiers are `Uuid`s, times are seconds. The rows are those of one
organization: row level security shows a caller no others.
-/

namespace FinanceIntelligence

/-- `INTERVAL '15 minutes'`. -/
def leaseSeconds : ℕ := 900

/-- `analysis_jobs`. -/
structure AnalysisJob where
  userId : Uuid
  status : AnalysisJobStatus
  requestPrompt : String
  normalizedRequest : StoredRequest
  lockedBy : Option String
  leaseExpiresAt : Option ℕ
  idempotencyKey : Option String
  claimToken : Option Uuid
  recoveryCount : ℕ
  createdAt : ℕ

/-- The status of an attempt. -/
inductive AttemptStatus where
  | running
  | inProgress
  | completed
  | failed
  | rejectedByPolicy
  | needsClarification
  | abandoned
deriving DecidableEq, Repr

/-- `analysis_attempts`. -/
structure AnalysisAttempt where
  id : Uuid
  attemptNumber : ℕ
  status : AttemptStatus

/-- The status of a clarification. -/
inductive ClarificationStatus where
  | awaiting
  | received
  | expired
  | cancelled
deriving DecidableEq, Repr

/-- `analysis_clarifications`. -/
structure AnalysisClarification where
  id : Uuid
  clarificationCode : String
  promptKey : String
  question : String
  allowedResponseSchema : AllowedResponse
  status : ClarificationStatus
  expiresAt : Option ℕ
  answeredAt : Option ℕ := none
  cancelledAt : Option ℕ := none
  responsePayload : Option (List (String × String)) := none
  attemptNumber : ℕ

/-- `analysis_plans`. -/
inductive AnalysisPlanRow where
  /-- the plan of an engine run -/
  | engine (arguments : ToolArguments)
  /-- the plan that records an answer -/
  | answer (attemptNumber : ℕ) (code : String) (response : List (String × String))

/-- The types of the events the server emits. -/
inductive EventType where
  | accepted
  | stateChanged
  | planReady
  | toolStarted
  | toolCompleted
  | completed
  | failed
  | clarificationRequired
  | clarificationReceived
  | resumed
  | clarificationExpired
deriving DecidableEq, Repr

/-- A value of an event payload. -/
inductive PayloadValue where
  | text (s : String)
  | texts (l : List String)
  | number (n : ℕ)
  | uuid (id : Uuid)
  | time (t : ℕ)

/-- An event payload: a JSON object. -/
abbrev Payload := List (String × PayloadValue)

/-- `analysis_events`. -/
structure AnalysisEvent where
  sequence : ℕ
  eventType : EventType
  /-- `analysis_attempt_id` -/
  attemptId : Option Uuid
  /-- `payload_json` -/
  payload : Payload

/-- A data classification. -/
inductive DataClassification where
  | isPublic
  | internal
  | confidential
  | strictlyConfidential
  | personalData
deriving DecidableEq, Repr

/-- A policy decision; the decisions no rule returns are left out. -/
inductive PolicyDecision where
  | allow
  | deny
  | requireMasking
deriving DecidableEq, Repr

/-- `policy_decisions`. -/
structure PolicyDecisionRow where
  decision : PolicyDecision
  classification : DataClassification

/-- What the engine reads of a tool result: the id of its dataset. -/
structure ToolResult where
  /-- `result_dataset.result_dataset_id` -/
  resultDatasetId : Option Uuid

/-- `tool_invocations`. -/
structure ToolInvocationRow where
  /-- `arguments_json`; the tool is always `compare_institutions` -/
  arguments : ToolArguments
  /-- `result_json` -/
  result : ToolResult

/-- `final_result_snapshots`: `result_json` as the engine or the save tool
writes it. -/
inductive FinalResultSnapshot where
  /-- written by the engine -/
  | engine (id : Uuid) (narrative : String) (resultDatasetId : Uuid)
  /-- written by `save_analysis` -/
  | saved (id : Uuid) (summary : String)
deriving DecidableEq

/-- A job row and the rows that refer to it, each table in insertion order. -/
structure JobRows where
  /-- the row of `analysis_jobs` -/
  job : AnalysisJob
  /-- `analysis_attempts` -/
  attempts : List AnalysisAttempt := []
  /-- `analysis_plans` -/
  plans : List AnalysisPlanRow := []
  /-- `analysis_clarifications` -/
  clarifications : List AnalysisClarification := []
  /-- `analysis_events` -/
  events : List AnalysisEvent := []
  policyDecisions : List PolicyDecisionRow := []
  toolInvocations : List ToolInvocationRow := []
  /-- `quality_gate_results` -/
  gateResults : List GateResult := []
  /-- `final_result_snapshots` -/
  snapshots : List FinalResultSnapshot := []

/-- The database, and the clock its functions read. -/
structure AnalysisDb where
  /-- `now()` -/
  now : ℕ
  /-- the ids of the jobs, in creation order -/
  jobIds : List Uuid
  /-- the rows of each job -/
  rows : Uuid → Option JobRows

/-! ## Statements -/

/-- A writing statement on the rows of one job. -/
inductive JobWrite where
  /-- `UPDATE analysis_jobs` -/
  | updateJob (set : AnalysisJob → AnalysisJob)
  /-- `INSERT INTO analysis_attempts` -/
  | insertAttempt (a : AnalysisAttempt)
  /-- `UPDATE analysis_attempts SET status` of the attempts a condition selects -/
  | updateAttempts (sel : AnalysisAttempt → Bool) (status : AttemptStatus)
  /-- `INSERT INTO analysis_plans` -/
  | insertPlan (p : AnalysisPlanRow)
  /-- `INSERT INTO analysis_clarifications` -/
  | insertClarification (c : AnalysisClarification)
  /-- `UPDATE analysis_clarifications` of one row -/
  | updateClarification (id : Uuid) (set : AnalysisClarification → AnalysisClarification)
  /-- `INSERT INTO analysis_events` -/
  | insertEvent (e : AnalysisEvent)
  /-- `INSERT INTO policy_decisions` -/
  | insertPolicyDecision (p : PolicyDecisionRow)
  /-- `INSERT INTO tool_invocations` -/
  | insertToolInvocation (t : ToolInvocationRow)
  /-- `INSERT INTO quality_gate_results` -/
  | insertGateResults (l : List GateResult)
  /-- `INSERT INTO final_result_snapshots` -/
  | insertSnapshot (s : FinalResultSnapshot)

namespace JobWrite

/-- The effect of a statement on the rows of its job. -/
def apply : JobWrite → JobRows → JobRows
  | .updateJob set, r => { r with job := set r.job }
  | .insertAttempt a, r => { r with attempts := r.attempts ++ [a] }
  | .updateAttempts sel st, r =>
    { r with attempts := r.attempts.map fun a => if sel a then { a with status := st } else a }
  | .insertPlan p, r => { r with plans := r.plans ++ [p] }
  | .insertClarification c, r => { r with clarifications := r.clarifications ++ [c] }
  | .updateClarification id set, r =>
    { r with clarifications := r.clarifications.map fun c => if c.id = id then set c else c }
  | .insertEvent e, r => { r with events := r.events ++ [e] }
  | .insertPolicyDecision p, r => { r with policyDecisions := r.policyDecisions ++ [p] }
  | .insertToolInvocation t, r => { r with toolInvocations := r.toolInvocations ++ [t] }
  | .insertGateResults l, r => { r with gateResults := r.gateResults ++ l }
  | .insertSnapshot s, r => { r with snapshots := r.snapshots ++ [s] }

/-- The constraints and triggers of the tables:
`chk_analysis_jobs_recovery_count`, `uq_job_attempt_number`,
`uq_active_clarification_per_job`, `trg_analysis_clarifications_immutability`,
`ck_sequence_positive`, `uq_analysis_events_org_job_seq` and
`uq_snapshot_analysis_job`. -/
def check : JobWrite → JobRows → Bool
  | .updateJob set, r => (set r.job).recoveryCount ≤ 1
  | .insertAttempt a, r => r.attempts.all fun b => b.attemptNumber != a.attemptNumber
  | .insertClarification c, r =>
    c.status != .awaiting || r.clarifications.all fun b => b.status != .awaiting
  | .updateClarification id set, r => r.clarifications.all fun c =>
    c.id != id || c.status == .awaiting || (set c).status == c.status
  | .insertEvent e, r => 0 < e.sequence && r.events.all fun b => b.sequence != e.sequence
  | .insertSnapshot _, r => r.snapshots.isEmpty
  | _, _ => true

end JobWrite

/-- A writing statement. -/
inductive Stmt where
  /-- `INSERT INTO analysis_jobs` -/
  | createJob (id : Uuid) (job : AnalysisJob)
  /-- a statement on the rows of a job -/
  | onJob (id : Uuid) (w : JobWrite)

/-- A row that a statement can lock. -/
inductive Row where
  /-- a row of `analysis_jobs` -/
  | job (id : Uuid)
  /-- a row of `analysis_clarifications`, with its job -/
  | clarification (job id : Uuid)
deriving DecidableEq

namespace AnalysisDb

/-- Replace the rows of a job. -/
def setRows (d : AnalysisDb) (j : Uuid) (r : JobRows) : AnalysisDb :=
  { d with rows := fun i => if i = j then some r else d.rows i }

/-- The rows of the existing jobs. -/
def jobs (d : AnalysisDb) : List (Uuid × JobRows) :=
  d.jobIds.filterMap fun j => (d.rows j).map (j, ·)

end AnalysisDb

/-- The schema. An insert into a table of a job holds the foreign key's share
lock on the job row, which excludes every `FOR UPDATE`, so it counts as a lock
of the row here; an update of a clarification locks the clarification. -/
def analysisSchema : Schema Row Stmt AnalysisDb where
  apply
    | .createJob j job, d => { d.setRows j { job } with jobIds := d.jobIds ++ [j] }
    | .onJob j w, d =>
      match d.rows j with
      | some r => d.setRows j (w.apply r)
      | none => d
  target
    | .createJob j _ => some (.job j)
    | .onJob j (.updateClarification c _) => some (.clarification j c)
    | .onJob j _ => some (.job j)
  check
    | .createJob j job, d =>
      (d.rows j).isNone && (job.idempotencyKey.isNone ||
        d.jobs.all fun (_, r) => r.job.idempotencyKey != job.idempotencyKey)
    | .onJob j w, d => (d.rows j).all w.check

end FinanceIntelligence
