import FinanceIntelligence.EventEngine

/-!
# The clarification service

`ClarificationService`: a question to the creator of a job, its answer, its
cancellation and its expiry. Audit records are left out.

An answer and a cancellation lock the job before the question, an expiry the question before the
job (`ClarificationDeadlock`). None of them runs the job again: that is left to a worker.
-/

namespace FinanceIntelligence

namespace ClarificationService

open AnalysisProg AnalysisEventEngine

/-- The time after which a question expires. -/
def ttlSeconds : ℕ := 900

/-- `SELECT … WHERE id = j FOR UPDATE`, or a 404. -/
def lockJobRows (j : Uuid) : AnalysisProg JobRows := do
  if ← lockJob j fun _ => true then
    let d ← select
    match d.rows j with
    | some r => return r
    | none => .raise (.http 404 "ANALYSIS_NOT_FOUND")
  else
    .raise (.http 404 "ANALYSIS_NOT_FOUND")

/-- `SELECT …` of a clarification of a job `FOR UPDATE`, or a 404. -/
def lockClarification (j c : Uuid) : AnalysisProg AnalysisClarification :=
  .lock (.clarification j c) (onRows j fun r => r.clarifications.any fun x => x.id == c) fun found =>
    if found then do
      let d ← select
      match (d.rows j).bind fun r => r.clarifications.find? fun x => x.id == c with
      | some clar => return clar
      | none => .raise (.http 404 "CLARIFICATION_NOT_FOUND")
    else .raise (.http 404 "CLARIFICATION_NOT_FOUND")

/-- `job.status = …`. -/
def setStatus (j : Uuid) (status : AnalysisJobStatus) : AnalysisProg Unit :=
  execute (.onJob j (.updateJob fun job => { job with status := status }))

/-- `require_clarification`. -/
def requireClarification (j : Uuid) (outcome : NormalizationOutcome) (attemptNumber : ℕ) :
    AnalysisProg Unit := do
  let r ← lockJobRows j
  validateTransition r.job.status .needsClarification
  let d ← select
  setStatus j .needsClarification
  let id ← uuid4
  let code := outcome.clarificationCode.getD "UNSUPPORTED_REQUEST_SCOPE"
  let promptKey := outcome.clarificationPromptKey.getD "NORMALIZATION_CLARIFICATION"
  execute (.onJob j (.insertClarification
    { id
      clarificationCode := code
      promptKey
      question := outcome.clarificationQuestion.getD "Lütfen analiz parametrelerini seçiniz."
      allowedResponseSchema := outcome.allowedResponseSchema
      status := .awaiting
      expiresAt := some (d.now + ttlSeconds)
      attemptNumber }))
  emitEvent j .clarificationRequired
    [("analysisId", .uuid j), ("clarificationId", .uuid id), ("clarificationCode", .text code),
      ("promptKey", .text promptKey), ("contractVersion", .text "3.0.0")]
  commit

/-- `respond`. -/
def respond (j c user : Uuid) (payload : List (String × String)) : AnalysisProg Unit := do
  let r ← lockJobRows j
  if r.job.userId ≠ user then
    Prog.raise (.http 403 "FORBIDDEN_MUTATION")
  else if r.job.status ≠ .needsClarification then
    Prog.raise (.http 400 "CLARIFICATION_NOT_REQUIRED")
  else
    let clar ← lockClarification j c
    match clar.status with
    | .received => .raise (.http 409 "CLARIFICATION_ALREADY_ANSWERED")
    | .expired | .cancelled => .raise (.http 409 "CLARIFICATION_EXPIRED")
    | .awaiting =>
      let d ← select
      if clar.expiresAt.any (· < d.now) then
        execute (.onJob j (.updateClarification c fun x => { x with status := .expired }))
        setStatus j .expired
        commit
        Prog.raise (.http 409 "CLARIFICATION_EXPIRED")
      else
        let valid ← call (·.valid)
        if !valid then
          Prog.raise (.http 400 "CLARIFICATION_RESPONSE_INVALID")
        else
          execute (.onJob j (.updateClarification c fun x =>
            { x with status := .received, answeredAt := some d.now, responsePayload := some payload }))
          let attemptNumber := clar.attemptNumber + 1
          let id ← uuid4
          execute (.onJob j (.insertAttempt ⟨id, attemptNumber, .inProgress⟩))
          execute (.onJob j (.insertPlan (.answer attemptNumber clar.clarificationCode payload)))
          validateTransition .needsClarification .understandingRequest
          setStatus j .understandingRequest
          emitEvent j .clarificationReceived
            [("analysisId", .uuid j), ("clarificationId", .uuid c), ("contractVersion", .text "3.0.0")]
          emitEvent j .resumed
            [("analysisId", .uuid j), ("attemptNumber", .number attemptNumber),
              ("contractVersion", .text "3.0.0")]
          commit

/-- `cancel`. -/
def cancel (j c user : Uuid) : AnalysisProg Unit := do
  let r ← lockJobRows j
  if r.job.userId ≠ user then
    Prog.raise (.http 403 "FORBIDDEN_MUTATION")
  else
    let _ ← lockClarification j c
    let d ← select
    validateTransition r.job.status .cancelled
    execute (.onJob j (.updateClarification c fun x =>
      { x with status := .cancelled, cancelledAt := some d.now }))
    setStatus j .cancelled
    commit

/-- The due questions. -/
def dueClarifications (d : AnalysisDb) : List Row :=
  d.jobs.flatMap fun (j, r) => r.clarifications.filterMap fun c =>
    if c.status = .awaiting ∧ c.expiresAt.any (· ≤ d.now) then some (.clarification j c.id) else none

/-- The job of an expired question expires with it, unless it has ended. -/
def expireJob (j : Uuid) (status : AnalysisJobStatus) : AnalysisProg Unit :=
  if status.isTerminal then .ret ()
  else do
    validateTransition status .expired
    setStatus j .expired

/-- One round of `expire_due_clarifications`, the job being locked. -/
def expireLocked (j c : Uuid) : AnalysisProg Unit := do
  let d ← select
  execute (.onJob j (.updateClarification c fun x => { x with status := .expired }))
  expireJob j (((d.rows j).map fun r => r.job.status).getD .expired)
  emitEvent j .clarificationExpired
    [("analysisId", .uuid j), ("clarificationId", .uuid c), ("contractVersion", .text "3.0.0")]

/-- One round of `expire_due_clarifications`. -/
def expireClarification (j c : Uuid) : AnalysisProg Unit := do
  if ← lockJob j fun _ => true then
    expireLocked j c

/-- The rounds of a batch. -/
def expireClarifications : List Row → AnalysisProg Unit
  | [] => .ret ()
  | .clarification j c :: l => do
    expireClarification j c
    expireClarifications l
  | .job _ :: l => expireClarifications l

/-- `expire_due_clarifications`; the whole batch is one transaction. -/
def expireDueClarifications (batchSize : ℕ) : AnalysisProg Unit :=
  .lockSkip dueClarifications batchSize fun l => do
    expireClarifications l
    if l ≠ [] then commit

end ClarificationService

end FinanceIntelligence
