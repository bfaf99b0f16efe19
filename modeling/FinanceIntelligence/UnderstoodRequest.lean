import FinanceIntelligence.JobRuns
import FinanceIntelligence.RequestNormalizer

/-!
# The request that an analysis executes

What `execute_job` plans and runs, compared with the request that the normalizer
understood: the ids and the measures are handed over, the basis is not, and the
comparison is always one of solo figures. What a completed job stores is the
normalized request; a document scope stored before is gone.

* `analysis_executesRequest_iff` — the run executes **what was understood** exactly if the basis
  that was asked for is the one that is always used, and keeps a document scope exactly if there
  was none.
-/

namespace FinanceIntelligence

open AnalysisProg AnalysisEventEngine OrchestratorEngine AnalysisRequestNormalizer RequestPlan

/-- The comparison that a normalized request asks for. -/
def requestedComparison (outcome : NormalizationOutcome) (req : NormalizedRequest) : ToolRequest where
  institutionIds := outcome.matchedInstitutionIds
  reportingPeriodIds := outcome.matchedPeriodIds
  semanticMeasures := req.requestedSemanticMeasures
  reportingBasis := req.reportingBasis

/-- A statement that records a planned or an executed comparison records this
one. -/
def Compares (want : ToolRequest) : Stmt → Prop
  | .onJob _ (.insertPlan (.engine args)) => toolRequest args = want
  | .onJob _ (.insertToolInvocation t) => toolRequest t.arguments = want
  | _ => True

/-- From the normalized request on, a run plans and executes the comparison that
the request asks for. -/
def ExecutesRequest (cfg : EngineConfig) (outcome : NormalizationOutcome)
    (req : NormalizedRequest) : Prop :=
  ∀ classification j token w attemptId,
    (runPlan cfg classification j token w attemptId outcome).WritesOnly
      (Compares (requestedComparison outcome req))

/-- The comparison that is planned: the basis is not handed over. -/
theorem toolRequest_toolArguments {outcome : NormalizationOutcome} {req : NormalizedRequest}
    (h : Answered outcome req) : toolRequest (toolArguments outcome [] []) =
      { requestedComparison outcome req with reportingBasis := .solo } := by
  simp [toolRequest, toolArguments, requestedComparison, normReq, h.request, h.institutions,
    h.periods, h.measures]

/-- Both matchings found something, so the tenant's tables are not read. -/
theorem planArguments_eq {outcome : NormalizationOutcome} {req : NormalizedRequest}
    (h : Answered outcome req) : planArguments outcome = .ret (toolArguments outcome [] []) := by
  simp [planArguments, h.institutions, h.periods]

/-! ## What a run writes -/

section Writes

variable {P : Stmt → Prop} {j token attemptId : Uuid} {w : String} {α : Type}

theorem writesOnly_execute {s : Stmt} (h : P s) : (execute s).WritesOnly P :=
  ⟨h, fun ok => by cases ok <;> trivial⟩

theorem writesOnly_call (f : Answer → α) : (call f).WritesOnly P := by
  intro i
  obtain ⟨_, error, _, _, _, _, _⟩ := i
  cases error <;> trivial

theorem writesOnly_select : select.WritesOnly P := fun _ => trivial

theorem writesOnly_commit : commit.WritesOnly P := by
  intro failed
  cases failed <;> trivial

theorem writesOnly_fence : (assertFencedOwnership j token w).WritesOnly P := by
  intro b
  cases b <;> trivial

theorem writesOnly_validate {current new : AnalysisJobStatus} :
    (AnalysisProg.validateTransition current new).WritesOnly P := by
  rw [AnalysisProg.validateTransition]
  split <;> trivial

theorem writesOnly_emit {eventType : EventType} {payload : Payload} {attemptId : Option Uuid}
    (h : ∀ e, P (.onJob j (.insertEvent e))) :
    (emitEvent j eventType payload attemptId).WritesOnly P := by
  rw [emitEvent]
  split
  · trivial
  · exact fun d => writesOnly_execute (h _)

theorem writesOnly_advance {current new : AnalysisJobStatus}
    (h : ∀ f, P (.onJob j (.updateJob f))) : (advance j current new).WritesOnly P :=
  writesOnly_validate.bind fun _ => writesOnly_execute (h _)

theorem writesOnly_updateWhere {q : JobRows → Bool} {set : AnalysisJob → AnalysisJob}
    (h : ∀ f, P (.onJob j (.updateJob f))) : (updateWhere j q set).WritesOnly P := by
  intro b
  cases b with
  | true => exact (writesOnly_execute (h _)).bind fun _ => trivial
  | false => trivial

end Writes

section Branches

variable {P : Stmt → Prop} {cfg : EngineConfig} {j token attemptId : Uuid} {w : String}

/-- The statements of a run on a job are of the kind, whatever it plans, invokes
and asks. -/
structure Routine (P : Stmt → Prop) (j : Uuid) : Prop where
  /-- on the job row -/
  job : ∀ set, P (.onJob j (.updateJob set))
  attempts : ∀ sel st, P (.onJob j (.updateAttempts sel st))
  /-- on its log -/
  event : ∀ e, P (.onJob j (.insertEvent e))
  /-- the decisions of the policy -/
  decision : ∀ row, P (.onJob j (.insertPolicyDecision row))
  /-- the results of the gates -/
  gates : ∀ l, P (.onJob j (.insertGateResults l))
  /-- the result -/
  snapshot : ∀ row, P (.onJob j (.insertSnapshot row))

theorem routine_compares (want : ToolRequest) : Routine (Compares want) j where
  job _ := trivial
  attempts _ _ := trivial
  event _ := trivial
  decision _ := trivial
  gates _ := trivial
  snapshot _ := trivial

theorem writesOnly_rejectByPolicy (hP : Routine P j) : (rejectByPolicy j attemptId).WritesOnly P := by
  simp only [rejectByPolicy, Prog.bind_eq]
  refine (writesOnly_execute (hP.job _)).bind fun _ => ?_
  refine (writesOnly_execute (hP.attempts _ _)).bind fun _ => ?_
  exact (writesOnly_emit hP.event).bind fun _ => writesOnly_commit

theorem writesOnly_runTool : runTool.WritesOnly P := by
  simp only [runTool, Prog.bind_eq, Prog.pure_eq]
  refine (writesOnly_call _).bind fun outcome => ?_
  cases outcome.result with
  | some res =>
    split
    · exact writesOnly_commit.bind fun _ => trivial
    · trivial
  | none =>
    split
    · exact writesOnly_commit.bind fun _ => trivial
    · trivial

seal AnalysisEventEngine.emitEvent in
/-- The tool is invoked with the arguments of the plan, or not at all. -/
theorem writesOnly_toolStep (hP : Routine P j) {args : ToolArguments}
    (htool : ∀ res, P (.onJob j (.insertToolInvocation ⟨args, res⟩))) :
    (toolStep j token w attemptId args).WritesOnly P := by
  simp only [toolStep, Prog.bind_eq, Prog.pure_eq]
  refine (writesOnly_emit hP.event).bind fun _ => ?_
  refine writesOnly_select.bind fun d => ?_
  refine Prog.WritesOnly.bind ?_ fun x => ?_
  · generalize (d.rows j).bind (fun r => checkExistingInvocation r args) = existing
    cases existing with
    | some res => trivial
    | none =>
      simp only [invokeTool, Prog.bind_eq, Prog.pure_eq]
      refine writesOnly_select.bind fun start => ?_
      refine writesOnly_runTool.bind fun res => ?_
      refine writesOnly_select.bind fun d => ?_
      refine writesOnly_fence.bind fun _ => ?_
      exact (writesOnly_execute (htool res)).bind fun _ => trivial
  · exact (writesOnly_emit (by exact hP.event)).bind fun _ => by trivial

theorem writesOnly_complete (hP : Routine P j) {res : ToolResult} :
    (complete cfg j token w attemptId res).WritesOnly P := by
  simp only [complete, Prog.bind_eq]
  refine writesOnly_fence.bind fun _ => ?_
  refine (writesOnly_advance hP.job).bind fun _ => ?_
  refine (writesOnly_advance hP.job).bind fun _ => ?_
  refine (writesOnly_call _).bind fun contentText => ?_
  split
  · trivial
  · refine writesOnly_fence.bind fun _ => ?_
    refine (writesOnly_advance hP.job).bind fun _ => ?_
    split
    · trivial
    · refine (writesOnly_execute (hP.gates _)).bind fun _ => ?_
      refine writesOnly_fence.bind fun _ => ?_
      refine writesOnly_validate.bind fun _ => ?_
      refine writesOnly_select.bind fun d => ?_
      refine (writesOnly_updateWhere hP.job).bind fun updated => ?_
      split
      · trivial
      · refine (writesOnly_execute (hP.attempts _ _)).bind fun _ i => ?_
        refine (writesOnly_execute (hP.snapshot _)).bind fun _ => ?_
        exact (writesOnly_emit hP.event).bind fun _ => writesOnly_commit

/-- A run plans and invokes what its outcome says, and asks nothing. -/
theorem writesOnly_runPlan (hP : Routine P j) {outcome : NormalizationOutcome}
    {req : NormalizedRequest} (h : Answered outcome req) (classification : DataClassification)
    (hplan : P (.onJob j (.insertPlan (.engine (toolArguments outcome [] [])))))
    (htool : ∀ res, P (.onJob j (.insertToolInvocation ⟨toolArguments outcome [] [], res⟩))) :
    (runPlan cfg classification j token w attemptId outcome).WritesOnly P := by
  simp only [runPlan, Prog.bind_eq, planArguments_eq h, Prog.ret_bind]
  refine (writesOnly_execute (hP.job _)).bind fun _ => ?_
  refine (writesOnly_call _).bind fun _ => ?_
  refine writesOnly_fence.bind fun _ => ?_
  refine (writesOnly_advance hP.job).bind fun _ => ?_
  refine (writesOnly_emit hP.event).bind fun _ => ?_
  refine (writesOnly_execute hplan).bind fun _ => ?_
  refine writesOnly_fence.bind fun _ => ?_
  refine (writesOnly_advance hP.job).bind fun _ => ?_
  refine (writesOnly_execute (hP.decision _)).bind fun _ => ?_
  split
  · exact writesOnly_fence.bind fun _ => writesOnly_rejectByPolicy hP
  · refine writesOnly_fence.bind fun _ => ?_
    refine (writesOnly_advance hP.job).bind fun _ => ?_
    refine (writesOnly_advance hP.job).bind fun _ => ?_
    refine (writesOnly_advance hP.job).bind fun _ => ?_
    exact (writesOnly_toolStep hP htool).bind fun _ => writesOnly_complete hP

end Branches

/-! ## The way to the plan -/

section Ways

variable {j token : Uuid} {w : String}

theorem mayReturn_execute (s : Stmt) : (execute s).MayReturn () := ⟨true, rfl⟩

theorem mayReturn_fence : (assertFencedOwnership j token w).MayReturn () := ⟨true, rfl⟩

theorem mayReturn_advance {current new : AnalysisJobStatus}
    (h : AnalysisJobStatus.validateTransition current new = none) :
    (advance j current new).MayReturn () := by
  rw [advance, AnalysisProg.validateTransition, h]
  exact mayReturn_execute _

theorem mayReturn_emit {eventType : EventType} {payload : Payload} {attemptId : Option Uuid}
    (h : payloadBytes payload ≤ maxPayloadBytes) :
    (emitEvent j eventType payload attemptId).MayReturn () := by
  rw [emitEvent, if_neg (Nat.not_lt.mpr h)]
  exact ⟨emptyAnalysisDb 0, mayReturn_execute _⟩

/-- A run that executes the request plans the comparison it asks for. -/
theorem ExecutesRequest.planned {cfg : EngineConfig} {outcome : NormalizationOutcome}
    {req : NormalizedRequest} (hexec : ExecutesRequest cfg outcome req)
    (h : Answered outcome req) :
    toolRequest (toolArguments outcome [] []) = requestedComparison outcome req := by
  have hrun := hexec .isPublic 0 0 "" 0
  simp only [runPlan, Prog.bind_eq, planArguments_eq h, Prog.ret_bind] at hrun
  replace hrun := hrun.of_bind (mayReturn_execute _)
  replace hrun := hrun.of_bind (a := ()) ⟨{ uuid := 0 }, rfl⟩
  replace hrun := hrun.of_bind mayReturn_fence
  replace hrun := hrun.of_bind (mayReturn_advance rfl)
  replace hrun := hrun.of_bind (mayReturn_emit (by decide))
  exact hrun.1

end Ways

/-- The run executes the request exactly when it asks for solo figures. -/
theorem executesRequest_iff {cfg : EngineConfig} {outcome : NormalizationOutcome}
    {req : NormalizedRequest} (h : Answered outcome req) :
    ExecutesRequest cfg outcome req ↔ req.reportingBasis = .solo := by
  refine ⟨fun hexec => ?_, fun hsolo => ?_⟩
  · have hplanned := hexec.planned h
    rw [toolRequest_toolArguments h] at hplanned
    exact (congrArg ToolRequest.reportingBasis hplanned).symm
  · have hwant : toolRequest (toolArguments outcome [] []) = requestedComparison outcome req := by
      rw [toolRequest_toolArguments h, ← hsolo]
      rfl
    intro classification j token w attemptId
    rw [← hwant]
    exact writesOnly_runPlan (routine_compares _) h classification rfl fun _ => rfl

/-- What the model extracted does not ask for consolidated figures. -/
def AsksSolo (T : TextReading) (answer : Option ExtractedRequestEntities) : Prop :=
  T.upper (answer.getD heuristicFallbackExtraction).reportingBasis ≠ "CONSOLIDATED"

/-- The basis of the normalized request is the one extracted. -/
theorem reportingBasis_eq_solo_iff {T : TextReading} {answer : Option ExtractedRequestEntities}
    {prompt : String} {tenant : TenantRecords} {req : NormalizedRequest}
    (h : (normalizeRequest T answer prompt tenant).normalizedRequest = some req) :
    req.reportingBasis = .solo ↔ AsksSolo T answer := by
  have hbasis : req.reportingBasis =
      basisOf T (answer.getD heuristicFallbackExtraction).reportingBasis := by
    rw [normalizeRequest] at h
    dsimp only at h
    split at h
    · cases h
    · split at h
      · cases h
      · split at h
        · cases h
        · obtain rfl := Option.some.inj h
          rfl
  rw [hbasis, basisOf, AsksSolo]
  split <;> simp_all

/-! ## The document scope -/

/-- A run of the engine has completed the job. -/
def CompletedByRun (r : JobRows) : Prop :=
  ∃ id narrative datasetId, .engine id narrative datasetId ∈ r.snapshots

/-- A job that a run has completed stores a normalized request. -/
theorem CompletedByRun.isNormalized {cfg : EngineConfig} {now : ℕ} {s : AnalysisSys}
    (h : AnalysisReachable cfg now s) {j : Uuid} {r : JobRows} (hr : s.db.rows j = some r)
    (hc : CompletedByRun r) : r.isNormalized = true := by
  refine rows_invariant (P := fun _ r => CompletedByRun r → r.isNormalized = true)
    (fun j job _ hc => ?_) (fun {s a pr j r r'} _ _ _ _ hstep ih hc => ?_) h j r hr hc
  · obtain ⟨_, _, _, hmem⟩ := hc
    cases hmem
  · rcases hstep.snapshots with hsame | ⟨-, ⟨_, _, _, -, hreq, -⟩ | ⟨_, _, hnew⟩⟩
    · rw [CompletedByRun, hsame] at hc
      exact hstep.isNormalized (ih hc)
    · exact hreq
    · obtain ⟨_, _, _, hmem⟩ := hc
      simp [hnew] at hmem

/-- So its document scope is gone. -/
theorem CompletedByRun.ne_documentScope {cfg : EngineConfig} {now : ℕ} {s : AnalysisSys}
    (h : AnalysisReachable cfg now s) {j : Uuid} {r : JobRows} (hr : s.db.rows j = some r)
    (hc : CompletedByRun r) (ids : List Uuid) :
    r.job.normalizedRequest ≠ .documentScope ids := by
  intro hscope
  have hreq := hc.isNormalized h hr
  rw [JobRows.isNormalized, hscope] at hreq
  cases hreq

/-- **The request that is executed**. A run executes the request that was
understood exactly when it asks for solo figures, and a job that a run has
completed keeps the document scope it had exactly when it had none. -/
theorem analysis_executesRequest_iff (cfg : EngineConfig) :
    (∀ T answer prompt tenant req,
      (normalizeRequest T answer prompt tenant).normalizedRequest = some req →
        (ExecutesRequest cfg (normalizeRequest T answer prompt tenant) req ↔
          AsksSolo T answer)) ∧
    ∀ now s₀ s j r₀ r, AnalysisReachable cfg now s₀ → (analysisModel cfg).Later s₀ s →
      s₀.db.rows j = some r₀ → s.db.rows j = some r → CompletedByRun r →
        ((∀ ids, r₀.job.normalizedRequest = .documentScope ids →
            r.job.normalizedRequest = .documentScope ids) ↔
          ∀ ids, r₀.job.normalizedRequest ≠ .documentScope ids) := by
  refine ⟨fun T answer prompt tenant req h => ?_,
    fun now s₀ s j r₀ r h₀ hlater _ hr hc => ⟨fun hkept ids hscope => ?_, fun hnone ids hscope => ?_⟩⟩
  · rw [executesRequest_iff (normalizeRequest_answered h), reportingBasis_eq_solo_iff h]
  · exact hc.ne_documentScope (h₀.later hlater) hr ids (hkept ids hscope)
  · exact absurd hscope (hnone ids)

/-- A run that reads texts as they are. -/
def plainReading : TextReading where
  lower := id
  upper := id
  strip := id
  resolveMetricCodes _ _ := []
  textMatchesPeriod _ _ := false

/-- A tenant with one institution and one period. -/
def akbankTenant : TenantRecords where
  institutions := [⟨1, "Akbank", "Akbank", none, []⟩]
  periods := [⟨2, 2025, some 4, "2025/Q4", "2025-Q4"⟩]
  catalog := []

theorem normalizeRequest_assets :
    normalizeRequest plainReading none "Akbank 2025-Q4 toplam aktifler" akbankTenant =
      assetsUnderstood := by
  decide +kernel

example : normalizeRequest plainReading none "2025-Q4" akbankTenant = institutionAsked := by
  decide +kernel

/-- A job with a document scope, before and after its run. -/
theorem scopedRun : ∃ (s₀ s : AnalysisSys) (r₀ r : JobRows), AnalysisReachable ⟨.ascii⟩ 100 s₀ ∧
    (analysisModel ⟨.ascii⟩).Later s₀ s ∧ s₀.db.rows 7 = some r₀ ∧ s.db.rows 7 = some r ∧
      r₀.job.normalizedRequest = .documentScope [3] ∧ r.isNormalized = true ∧
      CompletedByRun r := by
  have hrun : (((analysisModel ⟨.ascii⟩).run
      (Model.serve 0 (.createAnalysis 5 "Akbank 2025-Q4 toplam aktifler" none [3]) 5 { uuid := 7 })
      (Model.idle (emptyAnalysisDb 100))).bind fun s₀ => (s₀.db.rows 7).bind fun r₀ =>
        ((analysisModel ⟨.ascii⟩).run
          (Model.serve 1 (.runOnce "w") 62
            { uuid := 9, normalization := assetsUnderstood, contentText := some "Analiz" })
          s₀).bind fun s => (s.db.rows 7).map fun r =>
            (r₀.job.normalizedRequest, r.isNormalized, r.snapshots)) =
      some (.documentScope [3], true, [.engine 9 "Analiz" 1]) := by
    decide +kernel
  obtain ⟨s₀, hs₀, hrest⟩ := Option.bind_eq_some_iff.mp hrun
  obtain ⟨r₀, hr₀, hrest⟩ := Option.bind_eq_some_iff.mp hrest
  obtain ⟨s, hs, hrest⟩ := Option.bind_eq_some_iff.mp hrest
  obtain ⟨r, hr, hrows⟩ := Option.map_eq_some_iff.mp hrest
  simp only [Prod.mk.injEq] at hrows
  exact ⟨s₀, s, r₀, r,
    Model.ReachableBy.later .start (Model.LaterBy.of_runBy (fun _ _ _ => trivial) hs₀),
    Model.LaterBy.of_runBy (fun _ _ _ => trivial) hs, hr₀, hr, hrows.1, hrows.2.1,
    ⟨9, "Analiz", 1, by rw [hrows.2.2]; exact List.mem_singleton.mpr rfl⟩⟩

/-- A request for solo figures is executed, and a scope is gone with the run. -/
theorem analysis_executesRequest_assets :
    ExecutesRequest ⟨.ascii⟩
      (normalizeRequest plainReading none "Akbank 2025-Q4 toplam aktifler" akbankTenant)
      ⟨.singlePeriodAnalysis, ["Akbank"], ["2025-Q4"], ["TOTAL_ASSETS"], .solo⟩ ∧
    ∃ (r₀ r : JobRows), r₀.job.normalizedRequest = .documentScope [3] ∧ CompletedByRun r ∧
      ¬ ∀ ids, r₀.job.normalizedRequest = .documentScope ids →
        r.job.normalizedRequest = .documentScope ids := by
  obtain ⟨hexec, hscope⟩ := analysis_executesRequest_iff ⟨.ascii⟩
  obtain ⟨s₀, s, r₀, r, h₀, hlater, hr₀, hr, hscoped, -, hdone⟩ := scopedRun
  refine ⟨(hexec _ _ _ _ _ (by rw [normalizeRequest_assets]; rfl)).mpr ?_,
    r₀, r, hscoped, hdone, fun hkept => ?_⟩
  · rw [AsksSolo]
    decide
  · exact (hscope 100 s₀ s 7 r₀ r h₀ hlater hr₀ hr hdone).mp hkept [3] hscoped

/-- A request for consolidated figures is not executed, and the document scope of
a job is gone when it completes. -/
theorem analysis_not_executesRequest :
    (¬ ∀ cfg T answer prompt tenant req,
      (normalizeRequest T answer prompt tenant).normalizedRequest = some req →
        ExecutesRequest cfg (normalizeRequest T answer prompt tenant) req) ∧
    ¬ ∀ (cfg : EngineConfig) now s₀ s j r₀ r ids, AnalysisReachable cfg now s₀ →
      (analysisModel cfg).Later s₀ s → s₀.db.rows j = some r₀ → s.db.rows j = some r →
        CompletedByRun r → r₀.job.normalizedRequest = .documentScope ids →
          r.job.normalizedRequest = .documentScope ids := by
  refine ⟨fun hexec => ?_, fun hkept => ?_⟩
  · have hreq : (normalizeRequest plainReading
        (some { requestedInstitutions := ["Akbank"]
                requestedPeriods := ["2025-Q4"]
                requestedSemanticMeasures := ["TOTAL_ASSETS"]
                reportingBasis := "CONSOLIDATED" })
        "Akbank 2025-Q4 konsolide toplam aktifler" akbankTenant).normalizedRequest = some ⟨.crossInstitutionComparison, ["Akbank"], ["2025-Q4"],
            ["TOTAL_ASSETS"], .consolidated⟩ := by
      decide +kernel
    have hsolo := (executesRequest_iff (normalizeRequest_answered hreq)).mp
      (hexec ⟨.ascii⟩ _ _ _ _ _ hreq)
    cases hsolo
  · obtain ⟨s₀, s, r₀, r, h₀, hlater, hr₀, hr, hscoped, hreq, hdone⟩ := scopedRun
    have hscope := hkept _ 100 s₀ s 7 r₀ r [3] h₀ hlater hr₀ hr hdone hscoped
    rw [JobRows.isNormalized, hscope] at hreq
    cases hreq

end FinanceIntelligence
