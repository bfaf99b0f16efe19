import FinanceIntelligence.ClaimAuthority
import FinanceIntelligence.ClarificationService

/-!
# The orchestrator engine

`AnalysisOrchestratorEngine.execute_job`: the run of a claimed job. It is not one
transaction: the compare tool commits in its middle, and the clarification branch
commits the question and then writes once more. `_assert_fenced_ownership` locks
the job row again, and binds the tenant again, where the run goes on.

The plan has one step and the tool is called once, so the loop over steps of the source is
`toolStep`. What a provider, the normalizer and the tool answer comes from outside.
-/

namespace FinanceIntelligence

/-- What a deployment fixes for the engine. -/
structure EngineConfig where
  /-- how text is classified -/
  chars : CharClass

namespace PolicyEngine

/-- `evaluate_model_transmission` to an external provider. -/
def evaluateModelTransmission : DataClassification → PolicyDecision
  | .strictlyConfidential => .deny
  | .personalData => .requireMasking
  | .confidential => .deny
  | .internal | .isPublic => .allow

end PolicyEngine

namespace OrchestratorEngine

open AnalysisProg AnalysisEventEngine ClaimAuthority

/-- `_assert_fenced_ownership`. -/
def assertFencedOwnership (j token : Uuid) (w : String) : AnalysisProg Unit := do
  if !(← lockJob j (ownedBy token w)) then
    Prog.raise .claimOwnershipLost

/-- `job.status = …; flush`, the job row being in the session. -/
def advance (j : Uuid) (current new : AnalysisJobStatus) : AnalysisProg Unit := do
  AnalysisProg.validateTransition current new
  execute (.onJob j (.updateJob fun job => { job with status := new }))

/-- `attempt.status = …`. -/
def setAttempt (j attemptId : Uuid) (status : AttemptStatus) : AnalysisProg Unit :=
  execute (.onJob j (.updateAttempts (fun a => a.id == attemptId) status))

/-- The job ends: `status = …, lease_expires_at = NULL`. -/
def ended (status : AnalysisJobStatus) (job : AnalysisJob) : AnalysisJob :=
  { job with status := status, leaseExpiresAt := none }

/-- A policy denial: the job is rejected, and the run is over. -/
def rejectByPolicy (j attemptId : Uuid) : AnalysisProg Unit := do
  execute (.onJob j (.updateJob (ended .rejectedByPolicy)))
  setAttempt j attemptId .rejectedByPolicy
  emitEvent j .failed
    [("error_code", .text "POLICY_DENIED"), ("message", .text "Policy denied execution.")]
    (some attemptId)
  commit

/-- The clarification branch. The question is committed, and with it ends the
transaction for which `set_config(…, true)` bound the tenant. What the branch
writes next, the status of the attempt and `lease_expires_at = NULL`, is flushed
in a transaction without a tenant: row security shows it no row, the first
`UPDATE` matches none, and the session raises. -/
def askClarification (j token : Uuid) (w : String) (attemptNumber : ℕ)
    (outcome : NormalizationOutcome) : AnalysisProg Unit := do
  assertFencedOwnership j token w
  ClarificationService.requireClarification j outcome attemptNumber
  Prog.raise .staleData

/-- `ToolDeduplicationManager.check_existing_invocation`. -/
def checkExistingInvocation (r : JobRows) (args : ToolArguments) : Option ToolResult :=
  (r.toolInvocations.reverse.find? fun t => t.arguments == args).map (·.result)

/-- `CompareInstitutionsTool.execute`, which may commit the session. -/
def runTool : AnalysisProg ToolResult := do
  let outcome ← call (·.tool)
  if outcome.commits then commit
  match outcome.result with
  | some res => return res
  | none => Prog.raise (.outside none none)

/-- The result of an earlier invocation, or the run of the tool and its record;
with the time it took in milliseconds. -/
def invokeTool (j token : Uuid) (w : String) (args : ToolArguments) :
    Option ToolResult → AnalysisProg (ToolResult × ℕ)
  | some res => .ret (res, 0)
  | none => do
    let start ← select
    let res ← runTool
    let d ← select
    assertFencedOwnership j token w
    execute (.onJob j (.insertToolInvocation ⟨args, res⟩))
    return (res, 1000 * (d.now - start.now))

/-- The step of the tool loop. -/
def toolStep (j token : Uuid) (w : String) (attemptId : Uuid) (args : ToolArguments) :
    AnalysisProg ToolResult := do
  emitEvent j .toolStarted [("tool_name", .text "compare_institutions"), ("step", .number 1)]
    (some attemptId)
  let d ← select
  let x ← invokeTool j token w args ((d.rows j).bind fun r => checkExistingInvocation r args)
  emitEvent j .toolCompleted
    [("tool_name", .text "compare_institutions"), ("execution_time_ms", .number x.2)]
    (some attemptId)
  return x.1

/-- `dataset_summary`: all that the gate sees of the result. -/
def datasetSummary (id : Uuid) : GateDataset where
  text := "\x7b'result_dataset_id': '" ++ uuidText id ++ "'\x7d"

/-- From the tool's result to the committed snapshot. -/
def complete (cfg : EngineConfig) (j token : Uuid) (w : String) (attemptId : Uuid)
    (res : ToolResult) : AnalysisProg Unit := do
  assertFencedOwnership j token w
  advance j .executingTools .reconcilingResults
  advance j .reconcilingResults .generatingStructuredResult
  let contentText ← call (·.contentText)
  let narrative := (contentText.filter (· ≠ "")).getD "Analiz tamamlandı."
  match res.resultDatasetId with
  | none => .raise (.orchestration "DATASET_NOT_FOUND"
      "Real tool execution did not yield a valid result dataset.")
  | some datasetId =>
    assertFencedOwnership j token w
    advance j .generatingStructuredResult .qualityGate
    match QualityGateEngine.runAllGates cfg.chars narrative (datasetSummary datasetId) with
    | .error message => .raise (.orchestration "UNSUPPORTED_NUMERIC_CLAIM" message)
    | .ok gates =>
      execute (.onJob j (.insertGateResults gates))
      assertFencedOwnership j token w
      AnalysisProg.validateTransition .qualityGate .completed
      let d ← select
      let updated ← updateWhere j
        (fun r => r.job.claimToken == some token && r.job.lockedBy == some w)
        (ended .completed)
      if !updated then
        Prog.raise .claimOwnershipLost
      else
        setAttempt j attemptId .completed
        let id ← uuid4
        execute (.onJob j (.insertSnapshot (.engine id narrative datasetId)))
        emitEvent j .completed [("snapshot_id", .uuid id), ("completed_at", .time d.now)]
          (some attemptId)
        commit

/-- The arguments of the plan; what was not matched is taken from the tenant's
tables. -/
def planArguments (outcome : NormalizationOutcome) : AnalysisProg ToolArguments := do
  if outcome.matchedInstitutionIds = [] ∨ outcome.matchedPeriodIds = [] then
    let institutions ← call (·.tenantIds)
    let periods ← call (·.tenantIds)
    return RequestPlan.toolArguments outcome institutions periods
  else
    return RequestPlan.toolArguments outcome [] []

/-- From the normalized request to the completed job. -/
def runPlan (cfg : EngineConfig) (classification : DataClassification) (j token : Uuid)
    (w : String) (attemptId : Uuid) (outcome : NormalizationOutcome) : AnalysisProg Unit := do
  execute (.onJob j (.updateJob fun job =>
    { job with normalizedRequest := .normalized (RequestPlan.normReq outcome) }))
  let _ ← call fun _ => ()  -- `circuit_breaker.check_allow_execution`
  assertFencedOwnership j token w
  advance j .understandingRequest .planning
  emitEvent j .planReady
    [("step_count", .number 1), ("tools_planned", .texts ["compare_institutions"])] (some attemptId)
  let args ← planArguments outcome
  execute (.onJob j (.insertPlan (.engine args)))
  assertFencedOwnership j token w
  advance j .planning .policyCheck
  let decision := PolicyEngine.evaluateModelTransmission classification
  execute (.onJob j (.insertPolicyDecision ⟨decision, classification⟩))
  if decision = .deny then
    assertFencedOwnership j token w
    rejectByPolicy j attemptId
  else
    assertFencedOwnership j token w
    advance j .policyCheck .retrievingInternalSources
    advance j .retrievingInternalSources .validatingSources
    advance j .validatingSources .executingTools
    let res ← toolStep j token w attemptId args
    complete cfg j token w attemptId res

/-- The body of the `try`. -/
def runJob (cfg : EngineConfig) (classification : DataClassification) (j token : Uuid)
    (w : String) (status : AnalysisJobStatus) (attemptId : Uuid) (attemptNumber : ℕ) :
    AnalysisProg Unit := do
  assertFencedOwnership j token w
  emitEvent j .accepted [("status", .text "RECEIVED"), ("job_id", .uuid j)] (some attemptId)
  assertFencedOwnership j token w
  advance j status .understandingRequest
  emitEvent j .stateChanged
    [("from_state", .text "RECEIVED"), ("to_state", .text "UNDERSTANDING_REQUEST")] (some attemptId)
  let decision := PolicyEngine.evaluateModelTransmission classification
  if decision = .deny then
    assertFencedOwnership j token w
    execute (.onJob j (.insertPolicyDecision ⟨decision, classification⟩))
    rejectByPolicy j attemptId
  else
    let outcome ← call (·.normalization)
    if outcome.needsClarification then
      askClarification j token w attemptNumber outcome
    else
      runPlan cfg classification j token w attemptId outcome

/-- `getattr(exc, "code", …)` and `getattr(exc, "message", …)`; the exceptions of
the database layer have codes of their own. -/
def failurePayload (x : Exc) : Payload :=
  let (code, message) : Option String × Option String := match x with
    | .orchestration code message => (some code, some message)
    | .outside code message => (code, message)
    | .constraint _ => (some "gkpj", none)
    | .staleData => (some "None", none)
    | _ => (none, none)
  [("error_code", .text (code.getD "ENGINE_EXECUTION_FAILED")),
    ("message", .text (message.getD "Analysis job execution failed."))]

/-- The failure transaction, fenced anew. -/
def persistFailure (j token : Uuid) (w : String) (attemptId : Uuid) (x : Exc) :
    AnalysisProg Unit := do
  assertFencedOwnership j token w
  let updated ← updateWhere j
    (fun r => r.job.claimToken == some token && r.job.lockedBy == some w &&
      r.job.status != .completed && r.job.status != .rejectedByPolicy)
    (ended .failed)
  if !updated then
    Prog.raise .claimOwnershipLost
  else
    let d ← select
    if (d.rows j).any fun r => r.attempts.any fun a => a.id == attemptId then
      setAttempt j attemptId .failed
      emitEvent j .failed (failurePayload x) (some attemptId)
    else
      emitEvent j .failed (failurePayload x) none
    commit

/-- The handlers of the `try`. -/
def onException (j token : Uuid) (w : String) (attemptId : Uuid) (x : Exc) :
    AnalysisProg Unit := do
  rollback
  match x with
  | .claimOwnershipLost => .raise x
  | _ =>
    (persistFailure j token w attemptId x).tryCatch fun y =>
      match y with
      | .claimOwnershipLost => rollback
      | _ => .raise y
    Prog.raise x

/-- `execute_job`. -/
def executeJob (cfg : EngineConfig) (classification : DataClassification) (j token : Uuid)
    (w : String) : AnalysisProg Unit := do
  note (.executing j token w)
  assertFencedOwnership j token w
  if ← lockJob j fun r => r.job.claimToken == some token && r.job.lockedBy == some w then
    let d ← select
    match d.rows j with
    | none => .raise .claimOwnershipLost
    | some r =>
      let attemptNumber := r.attempts.length + 1
      let attemptId ← uuid4
      execute (.onJob j (.insertAttempt ⟨attemptId, attemptNumber, .inProgress⟩))
      (runJob cfg classification j token w r.job.status attemptId attemptNumber).tryCatch
        (onException j token w attemptId)
  else
    Prog.raise .claimOwnershipLost

end OrchestratorEngine

end FinanceIntelligence
