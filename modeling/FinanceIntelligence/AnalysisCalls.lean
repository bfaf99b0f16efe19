import FinanceIntelligence.OrchestratorEngine

/-!
# The calls of the analysis plane

The remaining writers of analysis rows, `create_analysis`, `cancel_analysis`,
`SaveAnalysisTool` and the worker, and the model of the whole plane: any number
of processes serving these calls while time passes.

A call is served by one process. It may be one transaction or many, and it may stop at any of its
instructions; the database then drops what is pending.
-/

namespace FinanceIntelligence

namespace AnalysisRouter

open AnalysisProg

/-- Every selected document is an active one of the tenant. -/
def validDocuments (scope : List Uuid) : AnalysisProg Bool :=
  if scope = [] then .ret true else call (·.valid)

/-- `create_analysis`. -/
def createAnalysis (user : Uuid) (prompt : String) (idempotencyKey : Option String)
    (documents : List Uuid) : AnalysisProg Unit := do
  let d ← select
  let key := idempotencyKey.filter (· ≠ "")
  if key.isSome ∧ d.jobs.any fun (_, r) => r.job.idempotencyKey == key then
    return ()
  else
    let scope := documents.eraseDups
    let valid ← validDocuments scope
    if !valid then
      Prog.raise (.http 404 "")
    else
      let id ← uuid4
      execute (.createJob id
        { userId := user
          status := .received
          requestPrompt := prompt
          normalizedRequest := if scope = [] then .empty else .documentScope scope
          lockedBy := none
          leaseExpiresAt := none
          idempotencyKey := idempotencyKey
          claimToken := none
          recoveryCount := 0
          createdAt := d.now })
      commit

/-- `cancel_analysis`: the job is read without a lock. -/
def cancelAnalysis (j user : Uuid) : AnalysisProg Unit := do
  let d ← select
  match d.rows j with
  | none => .raise (.http 404 "ANALYSIS_NOT_FOUND")
  | some r =>
    if r.job.userId ≠ user then
      Prog.raise (.http 403 "FORBIDDEN_MUTATION")
    else
      AnalysisProg.validateTransition r.job.status .cancelled
      execute (.onJob j (.updateJob fun job => { job with status := .cancelled }))
      commit

end AnalysisRouter

namespace SaveAnalysisTool

open AnalysisProg

/-- `SaveAnalysisTool.execute` and the commit of its caller: the job is read
without a lock, and its status is not validated. -/
def execute (j : Uuid) (summary : String) : AnalysisProg Unit := do
  let d ← select
  match d.rows j with
  | none => .raise (.outside (some "TOOL_INPUT_INVALID") none)
  | some _ =>
    let id ← uuid4
    AnalysisProg.execute (.onJob j (.updateJob fun job => { job with status := .completed }))
    AnalysisProg.execute (.onJob j (.insertSnapshot (.saved id summary)))
    commit

end SaveAnalysisTool

namespace AnalysisWorker

open AnalysisProg ClaimAuthority

/-- `run_once`: a fresh job, or else a stale one, and its run. The lease
heartbeat runs beside it as calls of its own. -/
def runOnce (cfg : EngineConfig) (w : String) : AnalysisProg Unit := do
  let claimed ← claimNextAnalysisJob w
  commit
  match claimed with
  | some (j, token) => OrchestratorEngine.executeJob cfg .isPublic j token w
  | none =>
    let recovered ← recoverNextStaleAnalysisJob w
    commit
    match recovered with
    | some (j, token) => OrchestratorEngine.executeJob cfg .isPublic j token w
    | none => return ()

end AnalysisWorker

/-- A call that a process serves. -/
inductive AnalysisCall where
  | createAnalysis (user : Uuid) (prompt : String) (key : Option String) (documents : List Uuid)
  | cancelAnalysis (job user : Uuid)
  | saveAnalysis (job : Uuid) (summary : String)
  | runOnce (worker : String)
  | executeJob (classification : DataClassification) (job token : Uuid) (worker : String)
  | renewLease (job token : Uuid) (worker : String)
  | respond (job clarification user : Uuid) (payload : List (String × String))
  | cancelClarification (job clarification user : Uuid)
  | expireDueClarifications (batchSize : ℕ)

/-- The analysis plane: the calls, and time passing. -/
def analysisModel (cfg : EngineConfig) : Model Row Stmt Answer Mark AnalysisDb Exc AnalysisCall ℕ where
  schema := analysisSchema
  body
    | .createAnalysis user prompt key documents =>
      AnalysisRouter.createAnalysis user prompt key documents
    | .cancelAnalysis j user => AnalysisRouter.cancelAnalysis j user
    | .saveAnalysis j summary => SaveAnalysisTool.execute j summary
    | .runOnce w => AnalysisWorker.runOnce cfg w
    | .executeJob classification j token w =>
      OrchestratorEngine.executeJob cfg classification j token w
    | .renewLease j token w => ClaimAuthority.renewAnalysisJobLease j token w
    | .respond j c user payload => ClarificationService.respond j c user payload
    | .cancelClarification j c user => ClarificationService.cancel j c user
    | .expireDueClarifications batchSize => ClarificationService.expireDueClarifications batchSize
  env seconds d := { d with now := d.now + seconds }

/-- No job exists. -/
def emptyAnalysisDb (now : ℕ) : AnalysisDb := ⟨now, [], fun _ => none⟩

end FinanceIntelligence
