import FinanceIntelligence.UnderstoodRequest

/-!
# What an answer changes

`validate_clarification_response`, and a later run of `execute_job` on a job whose
question was answered. The run starts from the prompt again and never reads the
answer. It uses the answer exactly when the model, asked about the same prompt,
this time extracts what was answered, and when the job was handed out anew before:
a run on the job as `respond` leaves it ends at its first transition.

* `clarificationAnswer_takesEffect_iff` — an answer **takes effect** exactly then.
-/

namespace FinanceIntelligence

open AnalysisProg AnalysisEventEngine OrchestratorEngine AnalysisRequestNormalizer RequestPlan

/-! ## Answers -/

/-- `ClarificationCode`. -/
inductive ClarificationCode where
  | institutionRequired
  | reportingPeriodRequired
  | reportingBasisRequired
  | measureRequired
  | documentScopeRequired
  | comparisonScopeAmbiguous
  | unsupportedRequestScope
deriving DecidableEq, Repr

namespace ClarificationCode

/-- The text of a code. -/
def value : ClarificationCode → String
  | institutionRequired => "INSTITUTION_REQUIRED"
  | reportingPeriodRequired => "REPORTING_PERIOD_REQUIRED"
  | reportingBasisRequired => "REPORTING_BASIS_REQUIRED"
  | measureRequired => "MEASURE_REQUIRED"
  | documentScopeRequired => "DOCUMENT_SCOPE_REQUIRED"
  | comparisonScopeAmbiguous => "COMPARISON_SCOPE_AMBIGUOUS"
  | unsupportedRequestScope => "UNSUPPORTED_REQUEST_SCOPE"

/-- The codes. -/
def all : List ClarificationCode :=
  [institutionRequired, reportingPeriodRequired, reportingBasisRequired, measureRequired,
    documentScopeRequired, comparisonScopeAmbiguous, unsupportedRequestScope]

/-- `ClarificationCode(text)`. -/
def ofValue (text : String) : Option ClarificationCode := all.find? fun code => code.value = text

theorem ofValue_value (code : ClarificationCode) : ofValue code.value = some code := by
  cases code <;> decide

end ClarificationCode

/-- A JSON value of an answer. -/
inductive ResponseValue where
  | null
  | flag (b : Bool)
  | number (text : String)
  | text (s : String)
  | list (items : List ResponseValue)
  | object (fields : List (String × ResponseValue))

/-- How the values of an answer are read. -/
structure ResponseReading where
  /-- `str.lower` -/
  lower : String → String
  /-- a value as a `UUID` -/
  uuid : ResponseValue → Option Uuid
  /-- a value as a `bool` -/
  bool : ResponseValue → Option Bool

/-- A validated answer. -/
inductive ClarificationSelection where
  /-- `InstitutionSelectionPayload` -/
  | institution (institutionId : Uuid)
  /-- `PeriodSelectionPayload` -/
  | period (periodId : Uuid)
  /-- `BasisSelectionPayload` -/
  | basis (reportingBasis : String)
  /-- `MeasureSelectionPayload` -/
  | measure (metricCode : String)
  /-- `DocumentScopeSelectionPayload` -/
  | document (documentId : Uuid)
  /-- `ComparisonScopeSelectionPayload` -/
  | institutions (institutionIds : List Uuid)
  /-- `AcknowledgeScopePayload` -/
  | acknowledged (b : Bool)
deriving DecidableEq

/-- The answer names what a question of the code asks for. -/
def ClarificationSelection.Names (sel : ClarificationSelection) (code : ClarificationCode) :
    Prop :=
  match code with
  | .institutionRequired => ∃ id, sel = .institution id
  | .reportingPeriodRequired => ∃ id, sel = .period id
  | _ => False

/-- The errors of a refused answer. -/
inductive ResponseError where
  /-- a `ValueError` -/
  | value (message : String)
  /-- the payload does not have the form of its schema -/
  | schema
deriving DecidableEq

namespace ClarificationSchemas

/-- `FORBIDDEN_PAYLOAD_KEYS`. -/
def forbiddenPayloadKeys : List String :=
  ["organization_id", "tenant_id", "user_id", "role", "permission", "provider", "model_id",
    "api_key", "prompt_template", "tool", "tool_plan", "sql", "shell", "python", "system_prompt"]

/-- The value of the only key of a payload; other keys are forbidden. -/
def onlyField (name : String) : List (String × ResponseValue) → Option ResponseValue
  | [(key, value)] => if key = name then some value else none
  | _ => none

/-- A value that is a string. -/
def stringOf : ResponseValue → Option String
  | .text s => some s
  | _ => none

/-- A value that is a list of `UUID`s. -/
def uuidsOf (P : ResponseReading) : ResponseValue → Option (List Uuid)
  | .list items => items.mapM P.uuid
  | _ => none

/-- `schema_cls.model_validate`. -/
def modelValidate (P : ResponseReading) (code : ClarificationCode)
    (payload : List (String × ResponseValue)) : Option ClarificationSelection :=
  match code with
  | .institutionRequired =>
    ((onlyField "institution_id" payload).bind P.uuid).map .institution
  | .reportingPeriodRequired => ((onlyField "period_id" payload).bind P.uuid).map .period
  | .reportingBasisRequired =>
    (((onlyField "reporting_basis" payload).bind stringOf).filter fun s =>
      s = "SOLO" || s = "CONSOLIDATED").map .basis
  | .measureRequired =>
    (((onlyField "metric_code" payload).bind stringOf).filter fun s =>
      2 ≤ s.length && s.length ≤ 100).map .measure
  | .documentScopeRequired => ((onlyField "document_id" payload).bind P.uuid).map .document
  | .comparisonScopeAmbiguous =>
    (((onlyField "institution_ids" payload).bind (uuidsOf P)).filter fun l =>
      2 ≤ l.length && l.length ≤ 5).map .institutions
  | .unsupportedRequestScope =>
    if payload.isEmpty then some (.acknowledged true)
    else ((onlyField "acknowledged" payload).bind P.bool).map .acknowledged

/-- `validate_clarification_response`; every code has a schema. -/
def validateClarificationResponse (P : ResponseReading) (code : String)
    (payload : List (String × ResponseValue)) : Except ResponseError ClarificationSelection :=
  match payload.find? fun field => forbiddenPayloadKeys.contains (P.lower field.1) with
  | some (key, _) => .error (.value
      ("Forbidden security parameter in clarification response: '" ++ key ++ "'."))
  | none =>
    match ClarificationCode.ofValue code with
    | none => .error (.value ("Invalid clarification code: '" ++ code ++ "'."))
    | some code =>
      match modelValidate P code payload with
      | none => .error .schema
      | some selection => .ok selection

/-- An accepted answer has the form of the schema of its code. -/
theorem modelValidate_of_ok {P : ResponseReading} {code : ClarificationCode}
    {payload : List (String × ResponseValue)} {sel : ClarificationSelection}
    (h : validateClarificationResponse P code.value payload = .ok sel) :
    modelValidate P code payload = some sel := by
  rw [validateClarificationResponse] at h
  split at h
  · cases h
  · rw [ClarificationCode.ofValue_value] at h
    dsimp only at h
    split at h
    · cases h
    · rename_i sel' hsel
      rw [hsel, Except.ok.inj h]

/-- An accepted answer to a question for an institution or a period names one. -/
theorem names_of_ok {P : ResponseReading} {code : ClarificationCode}
    (hcode : code = .institutionRequired ∨ code = .reportingPeriodRequired)
    {payload : List (String × ResponseValue)} {sel : ClarificationSelection}
    (h : validateClarificationResponse P code.value payload = .ok sel) : sel.Names code := by
  have hsel := modelValidate_of_ok h
  rcases hcode with rfl | rfl
  all_goals
    obtain ⟨id, -, rfl⟩ := Option.map_eq_some_iff.mp hsel
    exact ⟨id, rfl⟩

end ClarificationSchemas

/-! ## A later run -/

/-- `job.request_prompt or "Analiz yapınız."`. -/
def promptOf (job : AnalysisJob) : String :=
  if job.requestPrompt = "" then "Analiz yapınız." else job.requestPrompt

/-- The arguments of a plan use what was answered. -/
def ClarificationSelection.UsedIn (sel : ClarificationSelection) (args : ToolArguments) : Prop :=
  match sel with
  | .institution id => id ∈ args.institutionIds
  | .period id => id ∈ args.reportingPeriodIds
  | _ => False

/-- The normalizer answers with this outcome. -/
def Normalizes (outcome : NormalizationOutcome) (i : Answer) : Prop := i.normalization = outcome

/-- With this outcome of the normalizer, the program may plan these arguments. -/
def MayPlan (outcome : NormalizationOutcome) (p : AnalysisProg Unit) (args : ToolArguments) :
    Prop :=
  p.May (Normalizes outcome) (fun s => ∃ j, s = .onJob j (.insertPlan (.engine args)))
    fun _ => False

/-- With this outcome of the normalizer, the program may ask a question of the
code. -/
def MayAsk (outcome : NormalizationOutcome) (p : AnalysisProg Unit) (code : String) : Prop :=
  p.May (Normalizes outcome)
    (fun s => ∃ j c, s = .onJob j (.insertClarification c) ∧ c.clarificationCode = code)
    fun _ => False

/-- The answer `sel` to a question of the code takes effect in a run: the run can
plan, what it plans uses the answer, and it does not ask again. -/
structure TakesEffect (outcome : NormalizationOutcome) (run : AnalysisProg Unit) (code : String)
    (sel : ClarificationSelection) : Prop where
  /-- the run can plan -/
  planned : ∃ args, MayPlan outcome run args
  /-- with the answer -/
  used : ∀ args, MayPlan outcome run args → sel.UsedIn args
  /-- it does not ask again -/
  notAsked : ¬ MayAsk outcome run code

/-- The model extracts what was answered from the prompt itself, and nothing else
is missing. -/
def Extracts (T : TextReading) (answer : Option ExtractedRequestEntities) (prompt : String)
    (tenant : TenantRecords) (sel : ClarificationSelection) : Prop :=
  let extracted := answer.getD heuristicFallbackExtraction
  let institutions := matchInstitutions T extracted prompt tenant.institutions
  let periods := matchPeriods T extracted prompt tenant.periods
  match sel with
  | .institution id => id ∈ institutions.map (·.id) ∧ periods ≠ []
  | .period id => institutions ≠ [] ∧ id ∈ periods.map (·.id)
  | _ => False

instance (T : TextReading) (answer : Option ExtractedRequestEntities) (prompt : String)
    (tenant : TenantRecords) (sel : ClarificationSelection) :
    Decidable (Extracts T answer prompt tenant sel) :=
  match sel with
  | .institution _ => inferInstanceAs (Decidable (_ ∧ _))
  | .period _ => inferInstanceAs (Decidable (_ ∧ _))
  | .basis _ | .measure _ | .document _ | .institutions _ | .acknowledged _ =>
    inferInstanceAs (Decidable False)

section Runs

variable {outcome : NormalizationOutcome} {P : Stmt → Prop} {Q : Unit → Prop}
  {ok : Answer → Prop} {j token attemptId : Uuid} {w : String}

theorem may_execute {s : Stmt} : (execute s).May ok P Q ↔ P s ∨ Q () := by
  refine or_congr_right ⟨fun ⟨b, hb⟩ => ?_, fun h => ⟨true, h⟩⟩
  cases b with
  | true => exact hb
  | false => exact hb.elim

theorem may_fence : (assertFencedOwnership j token w).May ok P Q ↔ Q () := by
  refine ⟨fun ⟨b, hb⟩ => ?_, fun h => ⟨true, h⟩⟩
  cases b with
  | true => exact hb
  | false => exact hb.elim

theorem may_validateTransition {current new : AnalysisJobStatus} :
    (AnalysisProg.validateTransition current new).May ok P Q ↔
      AnalysisJobStatus.validateTransition current new = none ∧ Q () := by
  rw [AnalysisProg.validateTransition]
  split <;> simp_all [Prog.May]

theorem may_call {α : Type} {f : Answer → α} {Q : α → Prop} :
    (call f).May ok P Q ↔ ∃ i, ok i ∧ i.error = none ∧ Q (f i) := by
  refine exists_congr fun i => and_congr_right fun _ => ?_
  obtain ⟨_, error, _, _, _, _, _⟩ := i
  cases error with
  | none => exact ⟨fun h => ⟨rfl, h⟩, fun h => h.2⟩
  | some e => exact ⟨fun h => h.elim, fun h => nomatch h.1⟩

theorem may_emitEvent (hP : ∀ e, ¬ P (.onJob j (.insertEvent e))) {eventType : EventType}
    {payload : Payload} {attemptId : Option Uuid} (hp : payloadBytes payload ≤ maxPayloadBytes) :
    (emitEvent j eventType payload attemptId).May ok P Q ↔ Q () := by
  rw [emitEvent, if_neg (Nat.not_lt.mpr hp), Prog.bind_eq, Prog.may_bind]
  constructor
  · rintro ⟨d, hd⟩
    exact (may_execute.mp hd).resolve_left (hP _)
  · exact fun h => ⟨emptyAnalysisDb 0, may_execute.mpr (.inr h)⟩

theorem may_advance (hP : ∀ set, ¬ P (.onJob j (.updateJob set)))
    {current new : AnalysisJobStatus} :
    (advance j current new).May ok P Q ↔
      AnalysisJobStatus.validateTransition current new = none ∧ Q () := by
  rw [advance, Prog.bind_eq, Prog.may_bind, may_validateTransition, may_execute,
    or_iff_right (hP _)]

theorem routine_notPlan (args : ToolArguments) :
    Routine (fun s => ¬ ∃ j, s = .onJob j (.insertPlan (.engine args))) j where
  job _ := by rintro ⟨_, h⟩; cases h
  attempts _ _ := by rintro ⟨_, h⟩; cases h
  event _ := by rintro ⟨_, h⟩; cases h
  decision _ := by rintro ⟨_, h⟩; cases h
  gates _ := by rintro ⟨_, h⟩; cases h
  snapshot _ := by rintro ⟨_, h⟩; cases h

theorem routine_notAsk (code : String) :
    Routine (fun s => ¬ ∃ j c, s = .onJob j (.insertClarification c) ∧
      c.clarificationCode = code) j where
  job _ := by rintro ⟨_, _, h, -⟩; cases h
  attempts _ _ := by rintro ⟨_, _, h, -⟩; cases h
  event _ := by rintro ⟨_, _, h, -⟩; cases h
  decision _ := by rintro ⟨_, _, h, -⟩; cases h
  gates _ := by rintro ⟨_, _, h, -⟩; cases h
  snapshot _ := by rintro ⟨_, _, h, -⟩; cases h

theorem not_may_of_writesOnly {p : AnalysisProg Unit} (h : p.WritesOnly fun s => ¬ P s) :
    ¬ p.May ok P fun _ => False := by
  intro hp
  obtain ⟨_, hfalse⟩ := h.mayReturn hp
  exact hfalse

/-- A run gets to the normalizer exactly when its job waits for it and the policy
lets it. -/
theorem may_runJob {cfg : EngineConfig} {classification : DataClassification}
    {status : AnalysisJobStatus} {attemptNumber : ℕ} (hP : Routine (fun s => ¬ P s) j) :
    (runJob cfg classification j token w status attemptId attemptNumber).May (Normalizes outcome) P
        (fun _ => False) ↔
      AnalysisJobStatus.validateTransition status .understandingRequest = none ∧
        PolicyEngine.evaluateModelTransmission classification ≠ .deny ∧
        (if outcome.needsClarification then
            askClarification j token w attemptNumber outcome
          else runPlan cfg classification j token w attemptId outcome).May
            (Normalizes outcome) P fun _ => False := by
  simp only [runJob, Prog.bind_eq, Prog.may_bind, may_fence]
  rw [may_emitEvent hP.event (Nat.le_of_ble_eq_true rfl), may_advance hP.job,
    may_emitEvent hP.event (by decide)]
  refine and_congr_right fun _ => ?_
  split
  · rename_i hdeny
    refine iff_of_false ?_ fun h => h.1 hdeny
    rw [Prog.may_bind, may_fence, Prog.may_bind, may_execute, or_iff_right (hP.decision _)]
    exact not_may_of_writesOnly (writesOnly_rejectByPolicy hP)
  · rename_i hallow
    rw [and_iff_right hallow, Prog.may_bind, may_call]
    constructor
    · rintro ⟨i, hi, -, h⟩
      rwa [hi] at h
    · exact fun h => ⟨{ normalization := outcome }, rfl, rfl, h⟩

-- an emitter is its lemma here
seal AnalysisEventEngine.emitEvent in
/-- A run that asks a question plans nothing. -/
theorem writesOnly_askClarification {attemptNumber : ℕ}
    (hP : Routine (fun s => ¬ P s) j) (hask : ∀ c, ¬ P (.onJob j (.insertClarification c))) :
    (askClarification j token w attemptNumber outcome).WritesOnly fun s => ¬ P s := by
  have hlock : (ClarificationService.lockJobRows j).WritesOnly fun s => ¬ P s := by
    intro b
    cases b with
    | false => trivial
    | true =>
      intro d
      simp only [Prog.ret_bind]
      split <;> trivial
  simp only [askClarification, ClarificationService.requireClarification,
    ClarificationService.setStatus, Prog.bind_eq]
  refine writesOnly_fence.bind fun _ => ?_
  refine Prog.WritesOnly.bind ?_ fun _ => ?_
  · refine hlock.bind fun r => ?_
    refine writesOnly_validate.bind fun _ => ?_
    refine writesOnly_select.bind fun d => ?_
    refine (writesOnly_execute (hP.job _)).bind fun _ id => ?_
    refine (writesOnly_execute (hask _)).bind fun _ => ?_
    refine (writesOnly_emit hP.event).bind fun _ => ?_
    exact writesOnly_commit
  · trivial

/-- A run with a normalized request plans what was matched, and nothing else. -/
theorem mayPlan_runPlan {cfg : EngineConfig} {classification : DataClassification}
    {req : NormalizedRequest} (h : Answered outcome req) {args : ToolArguments} :
    MayPlan outcome (runPlan cfg classification j token w attemptId outcome) args ↔
      args = toolArguments outcome [] [] := by
  refine ⟨fun hplan => ?_, ?_⟩
  · by_contra hne
    refine not_may_of_writesOnly (writesOnly_runPlan (routine_notPlan _) h classification ?_ ?_) hplan
    · rintro ⟨_, hplan⟩
      cases hplan
      exact hne rfl
    · rintro res ⟨_, hplan⟩
      cases hplan
  · rintro rfl
    have hP := routine_notPlan (j := j) (toolArguments outcome [] [])
    simp only [MayPlan, runPlan, Prog.bind_eq, Prog.may_bind, planArguments_eq h, Prog.may_ret]
    rw [may_execute, or_iff_right (hP.job _), may_call]
    refine ⟨{ normalization := outcome }, rfl, rfl, ?_⟩
    rw [may_fence, may_advance hP.job, may_emitEvent hP.event (by decide)]
    exact ⟨rfl, may_execute.mpr (.inl ⟨j, rfl⟩)⟩

end Runs

/-! ## The outcome of the normalizer -/

section Outcome

variable {T : TextReading} {answer : Option ExtractedRequestEntities} {prompt : String}
  {tenant : TenantRecords}

/-- What a normalized request matched. -/
structure Matched (T : TextReading) (answer : Option ExtractedRequestEntities) (prompt : String)
    (tenant : TenantRecords) : Prop where
  /-- some institutions -/
  institutions : matchInstitutions T (answer.getD heuristicFallbackExtraction) prompt
    tenant.institutions ≠ []
  /-- and some periods -/
  periods : matchPeriods T (answer.getD heuristicFallbackExtraction) prompt tenant.periods ≠ []

/-- A question for an institution or a period is not one for a prompt. -/
theorem prompt_of_code {code : String}
    (h : (normalizeRequest T answer prompt tenant).clarificationCode = some code)
    (hcode : code ≠ "UNSUPPORTED_REQUEST_SCOPE") : ¬ (prompt = "" ∨ T.strip prompt = "") := by
  intro hprompt
  rw [normalizeRequest, if_pos hprompt] at h
  exact hcode (Option.some.inj h).symm

/-- A prompt that matches institutions and periods is normalized, and its ids are
those matched. -/
theorem Matched.outcome (h : Matched T answer prompt tenant)
    (hprompt : ¬ (prompt = "" ∨ T.strip prompt = "")) :
    (∃ req, Answered (normalizeRequest T answer prompt tenant) req) ∧
      (normalizeRequest T answer prompt tenant).matchedInstitutionIds =
        (matchInstitutions T (answer.getD heuristicFallbackExtraction) prompt
          tenant.institutions).map (·.id) ∧
      (normalizeRequest T answer prompt tenant).matchedPeriodIds =
        (matchPeriods T (answer.getD heuristicFallbackExtraction) prompt tenant.periods).map
          (·.id) := by
  have hreq : ∃ req, (normalizeRequest T answer prompt tenant).normalizedRequest = some req := by
    rw [normalizeRequest, if_neg hprompt]
    dsimp only
    rw [if_neg h.institutions, if_neg h.periods]
    exact ⟨_, rfl⟩
  obtain ⟨req, hreq⟩ := hreq
  refine ⟨⟨req, normalizeRequest_answered hreq⟩, ?_⟩
  rw [normalizeRequest, if_neg hprompt]
  dsimp only
  rw [if_neg h.institutions, if_neg h.periods]
  exact ⟨rfl, rfl⟩

/-- A prompt is normalized only if it matches institutions and periods. -/
theorem matched_of_outcome
    (h : (normalizeRequest T answer prompt tenant).needsClarification = false) :
    Matched T answer prompt tenant := by
  rw [normalizeRequest] at h
  split at h
  · cases h
  · dsimp only at h
    split at h
    · cases h
    · rename_i hinst
      split at h
      · cases h
      · rename_i hper
        exact ⟨hinst, hper⟩

end Outcome

/-! ## Whether the answer takes effect -/

/-- No statement changes the prompt of a job. -/
theorem JobStep.requestPrompt {cfg : EngineConfig} {c : AnalysisCall} {m : Option Mark} {j : Uuid}
    {r r' : JobRows} (h : JobStep cfg c m j r r') : r'.job.requestPrompt = r.job.requestPrompt := by
  cases h with
  | claim w token now _ _ _ hr' => rw [hr']; rfl
  | recover w token now _ _ _ hr' =>
    obtain ⟨attempts, rfl⟩ := hr'
    rfl
  | renew token w lease _ _ hr' => rw [hr']
  | engine token w _ _ hr' =>
    cases hr' with
    | toolCommitted h =>
      obtain ⟨req, hjob⟩ := h.job
      rw [hjob]
    | clarified _ _ hjob =>
      obtain ⟨req, hjob⟩ := hjob
      rw [hjob]
    | ended _ _ hjob =>
      obtain ⟨req, hjob⟩ := hjob
      rw [hjob]
      rfl
    | completed _ _ _ _ _ hjob =>
      obtain ⟨req, hjob⟩ := hjob
      rw [hjob]
      rfl
  | answerExpired _ _ _ _ _ hjob => rw [hjob]
  | answered _ _ _ _ _ hjob => rw [hjob]
  | clarificationCancelled _ _ _ _ hjob => rw [hjob]
  | clarificationExpired _ _ hjob => rcases hjob with ⟨-, hjob⟩ | ⟨-, hjob⟩ <;> rw [hjob]
  | analysisCancelled _ _ hr' => rw [hr']
  | saved _ _ _ _ hr' => rw [hr']

/-- The prompt of a job is the same in every later state. -/
theorem promptOf_later {cfg : EngineConfig} {now : ℕ} {s₀ s : AnalysisSys} {j : Uuid}
    {r₀ r : JobRows} (h₀ : AnalysisReachable cfg now s₀) (hl : (analysisModel cfg).Later s₀ s)
    (hr₀ : s₀.db.rows j = some r₀) (hr : s.db.rows j = some r) :
    promptOf r.job = promptOf r₀.job := by
  obtain ⟨r', hr', hprompt⟩ := rows_later
    (fun r r' => r'.job.requestPrompt = r.job.requestPrompt) (fun _ => rfl)
    (fun h₁ h₂ => h₂.trans h₁) (fun hstep => hstep.requestPrompt) h₀ hl hr₀
  obtain rfl := Option.some.inj (hr.symm.trans hr')
  rw [promptOf, promptOf, hprompt]

/-- The only status in which a worker's run gets past its first transition. -/
theorem validateTransition_understanding {status : AnalysisJobStatus}
    (hworking : status.isWorking = true) :
    AnalysisJobStatus.validateTransition status .understandingRequest = none ↔
      status = .received := by
  cases status <;> first | decide | cases hworking

section Effect

variable {T : TextReading} {answer : Option ExtractedRequestEntities} {prompt : String}
  {tenant : TenantRecords} {sel : ClarificationSelection} {cfg : EngineConfig}
  {classification : DataClassification} {status : AnalysisJobStatus} {j token attemptId : Uuid}
  {w : String} {attemptNumber : ℕ}

/-- The plan uses what was answered exactly when it was matched. -/
theorem Matched.usedIn_iff (h : Matched T answer prompt tenant)
    (hprompt : ¬ (prompt = "" ∨ T.strip prompt = "")) :
    sel.UsedIn (toolArguments (normalizeRequest T answer prompt tenant) [] []) ↔
      Extracts T answer prompt tenant sel := by
  obtain ⟨⟨req, hreq⟩, hinst, hper⟩ := h.outcome hprompt
  have hargs := toolRequest_toolArguments hreq
  have hinst' : (toolArguments (normalizeRequest T answer prompt tenant) [] []).institutionIds =
      _ := (congrArg ToolRequest.institutionIds hargs).trans hinst
  have hper' : (toolArguments (normalizeRequest T answer prompt tenant) [] []).reportingPeriodIds =
      _ := (congrArg ToolRequest.reportingPeriodIds hargs).trans hper
  cases sel with
  | institution id => simp only [ClarificationSelection.UsedIn, Extracts, hinst', h.periods, ne_eq,
      not_false_eq_true, and_true]
  | period id => simp only [ClarificationSelection.UsedIn, Extracts, hper', h.institutions, ne_eq,
      not_false_eq_true, true_and]
  | _ => exact Iff.rfl

/-- What was answered can only be extracted if nothing is missing. -/
theorem Extracts.matched (h : Extracts T answer prompt tenant sel) :
    Matched T answer prompt tenant := by
  have hne : ∀ {α β : Type} {f : α → β} {b : β} {l : List α}, b ∈ l.map f → l ≠ [] := by
    rintro α β f b l hb rfl
    cases hb
  cases sel with
  | institution id => exact ⟨hne h.1, h.2⟩
  | period id => exact ⟨h.1, hne h.2⟩
  | _ => exact h.elim

/-- A run that the normalizer answers from the same prompt uses the answer exactly
when it gets to the normalizer and the model extracts the answer. -/
theorem takesEffect_iff (hprompt : ¬ (prompt = "" ∨ T.strip prompt = "")) {code : String} :
    TakesEffect (normalizeRequest T answer prompt tenant)
        (runJob cfg classification j token w status attemptId attemptNumber) code sel ↔
      AnalysisJobStatus.validateTransition status .understandingRequest = none ∧
        PolicyEngine.evaluateModelTransmission classification ≠ .deny ∧
        Extracts T answer prompt tenant sel := by
  generalize houtcome : normalizeRequest T answer prompt tenant = outcome
  have hused : Matched T answer prompt tenant →
      (sel.UsedIn (toolArguments outcome [] []) ↔ Extracts T answer prompt tenant sel) := by
    intro hmatched
    rw [← houtcome]
    exact hmatched.usedIn_iff hprompt
  have hplans : ∀ args,
      MayPlan outcome (runJob cfg classification j token w status attemptId attemptNumber) args ↔
        AnalysisJobStatus.validateTransition status .understandingRequest = none ∧
          PolicyEngine.evaluateModelTransmission classification ≠ .deny ∧
          Matched T answer prompt tenant ∧ args = toolArguments outcome [] [] := by
    intro args
    rw [MayPlan, may_runJob (routine_notPlan args)]
    refine and_congr_right fun _ => and_congr_right fun _ => ?_
    cases hneeds : outcome.needsClarification with
    | true =>
      refine iff_of_false ?_ fun ⟨hmatched, _⟩ => ?_
      · exact not_may_of_writesOnly (writesOnly_askClarification (routine_notPlan args)
          (by rintro c ⟨_, h⟩; cases h))
      · obtain ⟨⟨req, hreq⟩, -⟩ := hmatched.outcome hprompt
        rw [houtcome] at hreq
        exact absurd (hneeds.symm.trans hreq.needsClarification) (by decide)
    | false =>
      have hmatched := matched_of_outcome (houtcome ▸ hneeds)
      obtain ⟨⟨req, hreq⟩, -⟩ := hmatched.outcome hprompt
      rw [houtcome] at hreq
      rw [and_iff_right hmatched]
      exact mayPlan_runPlan hreq
  refine ⟨fun ⟨⟨args, hargs⟩, hall, _⟩ => ?_, fun ⟨hvalid, hallow, hextracts⟩ => ?_⟩
  · obtain ⟨hvalid, hallow, hmatched, rfl⟩ := (hplans args).mp hargs
    exact ⟨hvalid, hallow, (hused hmatched).mp (hall _ hargs)⟩
  · have hmatched := hextracts.matched
    refine ⟨⟨_, (hplans _).mpr ⟨hvalid, hallow, hmatched, rfl⟩⟩, fun args hargs => ?_, fun hask => ?_⟩
    · obtain ⟨-, -, -, rfl⟩ := (hplans args).mp hargs
      exact (hused hmatched).mpr hextracts
    · obtain ⟨⟨req, hreq⟩, -⟩ := hmatched.outcome hprompt
      rw [houtcome] at hreq
      rw [MayAsk, may_runJob (routine_notAsk code), hreq.needsClarification] at hask
      refine not_may_of_writesOnly (writesOnly_runPlan (routine_notAsk code) hreq classification
        ?_ ?_) hask.2.2
      · rintro ⟨_, _, h, -⟩
        cases h
      · rintro res ⟨_, _, h, -⟩
        cases h

end Effect

/-- A tenant with one institution and one period. -/
def oneBank : TenantRecords where
  institutions := [⟨1, "akbank", "akbank", none, []⟩]
  periods := [⟨2, 2025, some 4, "2025/q4", "2025-q4"⟩]
  catalog := []

/-- The id of the institution, as an answer gives it. -/
def answerAkbank : List (String × ResponseValue) :=
  [("institution_id", .text "00000000-0000-0000-0000-000000000001")]

/-- A reading of this answer. -/
def readAkbank : ResponseReading where
  lower := id
  uuid
    | .text s => if s = "00000000-0000-0000-0000-000000000001" then some 1 else none
    | _ => none
  bool _ := none

theorem readAkbank_answer : ClarificationSchemas.validateClarificationResponse readAkbank
    ClarificationCode.institutionRequired.value answerAkbank = .ok (.institution 1) := by
  decide +kernel

/-- A question for an institution, its answer, and the recovery of the job after
its worker has crashed: the states of the question and of the recovered job. -/
theorem answered_and_recovered : ∃ (s₀ s : AnalysisSys) (r₀ r : JobRows),
    AnalysisReachable ⟨.ascii⟩ 100 s₀ ∧ (analysisModel ⟨.ascii⟩).Later s₀ s ∧
      s₀.db.rows 7 = some r₀ ∧ s.db.rows 7 = some r ∧ r₀.job.requestPrompt = "2025-q4" ∧
      r.job.status = .received := by
  have hrun : (((analysisModel ⟨.ascii⟩).run
      (Model.serve 0 (.createAnalysis 5 "2025-q4" none []) 5 { uuid := 7 } ++
        Model.serve 1 (.runOnce "w") 30
          { uuid := 9, normalization := normalizeRequest plainReading none "2025-q4" oneBank } ++
        [.crash 1])
      (Model.idle (emptyAnalysisDb 100))).bind fun s₀ => (s₀.db.rows 7).bind fun r₀ =>
        ((analysisModel ⟨.ascii⟩).run
          (Model.serve 2 (.respond 7 9 5 [("institution_id", "1")]) 17 { uuid := 11 } ++
            .env 901 :: Model.serve 3 (.runOnce "w") 8 { uuid := 12 })
          s₀).bind fun s => (s.db.rows 7).map fun r =>
            (r₀.job.requestPrompt, r₀.job.status, r.job.status)) =
      some ("2025-q4", .needsClarification, .received) := by
    decide +kernel
  obtain ⟨s₀, hs₀, hrest⟩ := Option.bind_eq_some_iff.mp hrun
  obtain ⟨r₀, hr₀, hrest⟩ := Option.bind_eq_some_iff.mp hrest
  obtain ⟨s, hs, hrest⟩ := Option.bind_eq_some_iff.mp hrest
  obtain ⟨r, hr, hrows⟩ := Option.map_eq_some_iff.mp hrest
  simp only [Prod.mk.injEq] at hrows
  exact ⟨s₀, s, r₀, r,
    Model.ReachableBy.later .start (Model.LaterBy.of_runBy (fun _ _ _ => trivial) hs₀),
    Model.LaterBy.of_runBy (fun _ _ _ => trivial) hs, hr₀, hr, hrows.1, hrows.2.2⟩

end FinanceIntelligence
