import FinanceIntelligence.ClarificationAnswer
import FinanceIntelligence.Observations

/-!
# Which prompts reach the provider

`execute_job` with what it reports about the prompt: each evaluation of the policy
and each text that is handed to a model provider. The branches on the decision test
for `DENY` only, so that `REQUIRE_MASKING` lets the prompt pass as it is.

* `transmission_lawful_iff` — a run transmits **lawfully** exactly if its policy asks for no
  masking.
-/

namespace FinanceIntelligence

/-- What a run reports. -/
inductive Transmission where
  /-- `evaluate_model_transmission` has returned -/
  | evaluated (decision : PolicyDecision)
  /-- a provider is handed the text, in a run on a job with the prompt -/
  | sent (requestPrompt text : String)
deriving DecidableEq

/-- A program that reports transmissions. -/
abbrev WatchedProg := Prog Row Stmt Answer (Mark ⊕ Transmission) AnalysisDb Exc

/-- The program, which transmits nothing. -/
abbrev quiet {α : Type} (p : AnalysisProg α) : WatchedProg α := p.observed Transmission

/-- The prompt is handed to a provider. -/
def transmit (job : AnalysisJob) : WatchedProg Unit :=
  Prog.observe (.sent job.requestPrompt (promptOf job))

namespace OrchestratorEngine

open AnalysisProg AnalysisEventEngine ClaimAuthority

/-- `normalize_request`: a blank prompt is not handed to the fast model. -/
def normalizeRequestWatched (cfg : EngineConfig) (job : AnalysisJob) :
    WatchedProg NormalizationOutcome := do
  if !(promptOf job).toList.all cfg.chars.space then
    transmit job
  quiet (call (·.normalization))

/-- From the narrative to the committed snapshot. -/
def publish (cfg : EngineConfig) (j token : Uuid) (w : String) (attemptId : Uuid)
    (res : ToolResult) (contentText : Option String) : AnalysisProg Unit := do
  let narrative := (contentText.filter (· ≠ "")).getD "Analiz tamamlandı."
  match res.resultDatasetId with
  | none => .raise (.orchestration "DATASET_NOT_FOUND"
      "Real tool execution did not yield a valid result dataset.")
  | some datasetId =>
    assertFencedOwnership j token w
    advance j .generatingStructuredResult .qualityGate
    match QualityGateEngine.runAllGates cfg.chars narrative (datasetSummary datasetId) with
    | .error message => .raise (.orchestration "UNSUPPORTED_NUMERIC_CLAIM" message)
    | .ok gates =>
      execute (.onJob j (.insertGateResults gates))
      assertFencedOwnership j token w
      AnalysisProg.validateTransition .qualityGate .completed
      let d ← select
      let updated ← updateWhere j
        (fun r => r.job.claimToken == some token && r.job.lockedBy == some w)
        (ended .completed)
      if !updated then
        Prog.raise .claimOwnershipLost
      else
        setAttempt j attemptId .completed
        let id ← uuid4
        execute (.onJob j (.insertSnapshot (.engine id narrative datasetId)))
        emitEvent j .completed [("snapshot_id", .uuid id), ("completed_at", .time d.now)]
          (some attemptId)
        commit

/-- `complete`: the second turn is given the prompt again. -/
def completeWatched (cfg : EngineConfig) (job : AnalysisJob) (j token : Uuid) (w : String)
    (attemptId : Uuid) (res : ToolResult) : WatchedProg Unit := do
  quiet do
    assertFencedOwnership j token w
    advance j .executingTools .reconcilingResults
    advance j .reconcilingResults .generatingStructuredResult
  transmit job
  quiet do
    let contentText ← call (·.contentText)
    publish cfg j token w attemptId res contentText

/-- `runPlan`: the policy is evaluated a second time. -/
def runPlanWatched (cfg : EngineConfig) (classification : DataClassification) (job : AnalysisJob)
    (j token : Uuid) (w : String) (attemptId : Uuid) (outcome : NormalizationOutcome) :
    WatchedProg Unit := do
  quiet do
    execute (.onJob j (.updateJob fun job =>
      { job with normalizedRequest := .normalized (RequestPlan.normReq outcome) }))
    let _ ← call fun _ => ()
    assertFencedOwnership j token w
    advance j .understandingRequest .planning
    emitEvent j .planReady
      [("step_count", .number 1), ("tools_planned", .texts ["compare_institutions"])]
      (some attemptId)
  let args ← quiet (planArguments outcome)
  quiet do
    execute (.onJob j (.insertPlan (.engine args)))
    assertFencedOwnership j token w
    advance j .planning .policyCheck
  let decision := PolicyEngine.evaluateModelTransmission classification
  Prog.observe (.evaluated decision)
  quiet (execute (.onJob j (.insertPolicyDecision ⟨decision, classification⟩)))
  if decision = .deny then
    quiet do
      assertFencedOwnership j token w
      rejectByPolicy j attemptId
  else
    let res ← quiet do
      assertFencedOwnership j token w
      advance j .policyCheck .retrievingInternalSources
      advance j .retrievingInternalSources .validatingSources
      advance j .validatingSources .executingTools
      toolStep j token w attemptId args
    completeWatched cfg job j token w attemptId res

/-- `runJob`: the policy is evaluated before the normalizer is called. -/
def runJobWatched (cfg : EngineConfig) (classification : DataClassification) (job : AnalysisJob)
    (j token : Uuid) (w : String) (attemptId : Uuid) (attemptNumber : ℕ) : WatchedProg Unit := do
  quiet do
    assertFencedOwnership j token w
    emitEvent j .accepted [("status", .text "RECEIVED"), ("job_id", .uuid j)] (some attemptId)
    assertFencedOwnership j token w
    advance j job.status .understandingRequest
    emitEvent j .stateChanged
      [("from_state", .text "RECEIVED"), ("to_state", .text "UNDERSTANDING_REQUEST")]
      (some attemptId)
  let decision := PolicyEngine.evaluateModelTransmission classification
  Prog.observe (.evaluated decision)
  if decision = .deny then
    quiet do
      assertFencedOwnership j token w
      execute (.onJob j (.insertPolicyDecision ⟨decision, classification⟩))
      rejectByPolicy j attemptId
  else
    let outcome ← normalizeRequestWatched cfg job
    if outcome.needsClarification then
      quiet (askClarification j token w attemptNumber outcome)
    else
      runPlanWatched cfg classification job j token w attemptId outcome

/-- `execute_job`, with its transmissions. -/
def executeJobWatched (cfg : EngineConfig) (classification : DataClassification) (j token : Uuid)
    (w : String) : WatchedProg Unit := do
  quiet do
    note (.executing j token w)
    assertFencedOwnership j token w
  if ← quiet (lockJob j fun r => r.job.claimToken == some token && r.job.lockedBy == some w) then
    let d ← quiet select
    match d.rows j with
    | none => .raise .claimOwnershipLost
    | some r =>
      let attemptNumber := r.attempts.length + 1
      let attemptId ← quiet uuid4
      quiet (execute (.onJob j (.insertAttempt ⟨attemptId, attemptNumber, .inProgress⟩)))
      (runJobWatched cfg classification r.job j token w attemptId attemptNumber).tryCatch
        fun x => quiet (onException j token w attemptId x)
  else
    Prog.raise .claimOwnershipLost

section Silent

variable {cfg : EngineConfig} {classification : DataClassification} {job : AnalysisJob}
  {j token attemptId : Uuid} {w : String} {attemptNumber : ℕ} {res : ToolResult}
  {outcome : NormalizationOutcome}

theorem silent_transmit : (transmit job).silent = .ret () := rfl

theorem silent_normalizeRequestWatched :
    (normalizeRequestWatched cfg job).silent = call (·.normalization) := by
  simp only [normalizeRequestWatched, Prog.bind_eq]
  split <;> simp [silent_transmit]

theorem silent_completeWatched :
    (completeWatched cfg job j token w attemptId res).silent =
      complete cfg j token w attemptId res := by
  simp only [completeWatched, complete, Prog.bind_eq, Prog.silent_bind, Prog.silent_observed,
    silent_transmit, Prog.ret_bind, Prog.bind_assoc]
  rfl

theorem silent_runPlanWatched :
    (runPlanWatched cfg classification job j token w attemptId outcome).silent =
      runPlan cfg classification j token w attemptId outcome := by
  simp only [runPlanWatched, runPlan, Prog.bind_eq, Prog.silent_bind, Prog.silent_observed,
    Prog.silent_observe, Prog.silent_ite, silent_completeWatched, Prog.ret_bind, Prog.bind_assoc]

theorem silent_runJobWatched :
    (runJobWatched cfg classification job j token w attemptId attemptNumber).silent =
      runJob cfg classification j token w job.status attemptId attemptNumber := by
  simp only [runJobWatched, runJob, Prog.bind_eq, Prog.silent_bind, Prog.silent_observed,
    Prog.silent_observe, Prog.silent_ite, silent_normalizeRequestWatched, silent_runPlanWatched,
    Prog.ret_bind, Prog.bind_assoc]

/-- Without its reports it is `execute_job`. -/
theorem silent_executeJobWatched :
    (executeJobWatched cfg classification j token w).silent =
      executeJob cfg classification j token w := by
  have hrow : ∀ o : Option JobRows,
      (match o with
        | none => .raise .claimOwnershipLost
        | some r => (quiet uuid4).bind fun attemptId =>
          (quiet (execute (.onJob j (.insertAttempt
            ⟨attemptId, r.attempts.length + 1, .inProgress⟩)))).bind fun _ =>
          (runJobWatched cfg classification r.job j token w attemptId
            (r.attempts.length + 1)).tryCatch fun x => quiet (onException j token w attemptId x) :
          WatchedProg Unit).silent =
      match o with
        | none => .raise .claimOwnershipLost
        | some r => uuid4.bind fun attemptId =>
          (execute (.onJob j (.insertAttempt
            ⟨attemptId, r.attempts.length + 1, .inProgress⟩))).bind fun _ =>
          (runJob cfg classification j token w r.job.status attemptId
            (r.attempts.length + 1)).tryCatch (onException j token w attemptId) := by
    intro o
    cases o with
    | none => rfl
    | some r =>
      simp only [Prog.silent_bind, Prog.silent_observed, Prog.silent_tryCatch,
        silent_runJobWatched]
  simp only [executeJobWatched, executeJob, Prog.bind_eq, Prog.silent_bind, Prog.silent_observed,
    Prog.silent_ite, Prog.silent_raise, Prog.bind_assoc]
  refine congrArg _ (funext fun _ => congrArg _ (funext fun _ => congrArg _ (funext fun b => ?_)))
  refine if_congr Iff.rfl (congrArg _ (funext fun d => ?_)) rfl
  exact hrow (d.rows j)

end Silent

end OrchestratorEngine

open OrchestratorEngine

/-- `run_once`, with its transmissions. -/
def runOnceWatched (cfg : EngineConfig) (w : String) : WatchedProg Unit := do
  let claimed ← quiet do
    let claimed ← ClaimAuthority.claimNextAnalysisJob w
    AnalysisProg.commit
    return claimed
  match claimed with
  | some (j, token) => executeJobWatched cfg .isPublic j token w
  | none =>
    let recovered ← quiet do
      let recovered ← ClaimAuthority.recoverNextStaleAnalysisJob w
      AnalysisProg.commit
      return recovered
    match recovered with
    | some (j, token) => executeJobWatched cfg .isPublic j token w
    | none => return ()

/-- The analysis plane, whose engine runs report their transmissions. -/
def transmissionModel (cfg : EngineConfig) :
    Model Row Stmt Answer (Mark ⊕ Transmission) AnalysisDb Exc AnalysisCall ℕ where
  schema := analysisSchema
  body
    | .executeJob classification j token w => executeJobWatched cfg classification j token w
    | .runOnce w => runOnceWatched cfg w
    | c => quiet ((analysisModel cfg).body c)
  env := (analysisModel cfg).env

/-- A state of the analysis plane, with transmissions. -/
abbrev TransmissionSys := Sys Row Stmt Answer (Mark ⊕ Transmission) AnalysisDb Exc AnalysisCall

theorem silent_runOnceWatched (cfg : EngineConfig) (w : String) :
    (runOnceWatched cfg w).silent = AnalysisWorker.runOnce cfg w := by
  have hrecovered : ∀ o : Option (Uuid × Uuid),
      (match o with
        | some (j, token) => executeJobWatched cfg .isPublic j token w
        | none => .ret () : WatchedProg Unit).silent =
      match o with
        | some (j, token) => executeJob cfg .isPublic j token w
        | none => .ret () := by
    intro o
    cases o with
    | none => rfl
    | some x => exact silent_executeJobWatched
  have hclaimed : ∀ o : Option (Uuid × Uuid),
      (match o with
        | some (j, token) => executeJobWatched cfg .isPublic j token w
        | none => (quiet ((ClaimAuthority.recoverNextStaleAnalysisJob w).bind fun recovered =>
            AnalysisProg.commit.bind fun _ => .ret recovered)).bind fun recovered =>
          match recovered with
          | some (j, token) => executeJobWatched cfg .isPublic j token w
          | none => .ret () : WatchedProg Unit).silent =
      match o with
        | some (j, token) => executeJob cfg .isPublic j token w
        | none => (ClaimAuthority.recoverNextStaleAnalysisJob w).bind fun recovered =>
          AnalysisProg.commit.bind fun _ =>
            match recovered with
            | some (j, token) => executeJob cfg .isPublic j token w
            | none => .ret () := by
    intro o
    cases o with
    | none =>
      simp only [Prog.silent_bind, Prog.silent_observed, Prog.bind_assoc, Prog.ret_bind, hrecovered]
    | some x => exact silent_executeJobWatched
  simp only [runOnceWatched, AnalysisWorker.runOnce, Prog.bind_eq, Prog.pure_eq, Prog.silent_bind,
    Prog.silent_observed, Prog.bind_assoc, Prog.ret_bind]
  refine congrArg _ (funext fun claimed => congrArg _ (funext fun _ => ?_))
  exact hclaimed claimed

/-- The reports change nothing. -/
theorem transmissionModel_silences (cfg : EngineConfig) :
    (transmissionModel cfg).Silences (analysisModel cfg) where
  schema := rfl
  body c := by
    cases c with
    | executeJob classification j token w => exact silent_executeJobWatched.symm
    | runOnce w => exact (silent_runOnceWatched cfg w).symm
    | _ => exact Prog.silent_observed.symm
  env := rfl

/-! ## The law -/

/-- What the policy is for, in a run with the classification: the prompt is handed
over as it is only after the policy allowed it, it is not handed over as it is where
it has to be masked, and nothing is handed over where that is denied. -/
structure Lawful (classification : DataClassification) (l : List Transmission) : Prop where
  /-- the policy came first -/
  allowed : ∀ l₁ prompt text l₂, l = l₁ ++ .sent prompt text :: l₂ → text = prompt →
    .evaluated .allow ∈ l₁
  /-- masking -/
  masked : PolicyEngine.evaluateModelTransmission classification = .requireMasking →
    ∀ prompt text, .sent prompt text ∈ l → text ≠ prompt
  /-- denial -/
  denied : PolicyEngine.evaluateModelTransmission classification = .deny →
    ∀ prompt text, .sent prompt text ∉ l

/-- The call runs `execute_job` with the classification. -/
def RunsWith (c : AnalysisCall) (classification : DataClassification) : Prop :=
  (∃ j token w, c = .executeJob classification j token w) ∨
    ∃ w, c = .runOnce w ∧ classification = .isPublic

/-- What a call may report. -/
def ReportsLawful (c : AnalysisCall) (l : List Transmission) : Prop :=
  ∀ classification, RunsWith c classification →
    PolicyEngine.evaluateModelTransmission classification ≠ .requireMasking →
      Lawful classification l

section Lawful

variable {classification : DataClassification} {l : List Transmission} {job : AnalysisJob}

theorem Lawful.nil : Lawful classification [] :=
  ⟨fun l₁ _ _ _ h => by simp at h, fun _ _ _ h => by simp at h, fun _ _ _ h => by simp at h⟩

/-- A report is the last one, or an earlier one. -/
theorem append_singleton_eq {l l₁ l₂ : List Transmission} {x y : Transmission}
    (h : l ++ [x] = l₁ ++ y :: l₂) : (l₁ = l ∧ y = x) ∨ ∃ l₃, l = l₁ ++ y :: l₃ := by
  rcases List.eq_nil_or_concat l₂ with rfl | ⟨l₃, z, rfl⟩
  · obtain ⟨rfl, hx⟩ := List.append_inj' h rfl
    exact .inl ⟨rfl, (List.singleton_inj.mp hx).symm⟩
  · have h' : l ++ [x] = (l₁ ++ y :: l₃) ++ [z] := by simpa using h
    exact .inr ⟨l₃, (List.append_inj' h' rfl).1⟩

/-- The policy is evaluated. -/
theorem Lawful.evaluated (h : Lawful classification l) (d : PolicyDecision) :
    Lawful classification (l ++ [.evaluated d]) where
  allowed l₁ prompt text l₂ hl htext := by
    rcases append_singleton_eq hl with ⟨-, heq⟩ | ⟨l₃, hl⟩
    · cases heq
    · exact h.allowed l₁ prompt text l₃ hl htext
  masked hd prompt text hmem := h.masked hd prompt text (by simpa using hmem)
  denied hd prompt text hmem := h.denied hd prompt text (by simpa using hmem)

/-- The prompt is handed over, which the policy has allowed. -/
theorem Lawful.sent (h : Lawful classification l) {prompt text : String}
    (hd : PolicyEngine.evaluateModelTransmission classification = .allow)
    (hallow : .evaluated .allow ∈ l) : Lawful classification (l ++ [.sent prompt text]) where
  allowed l₁ prompt' text' l₂ hl htext := by
    rcases append_singleton_eq hl with ⟨rfl, -⟩ | ⟨l₃, hl⟩
    · exact hallow
    · exact h.allowed l₁ prompt' text' l₃ hl htext
  masked hmask := by
    rw [hd] at hmask
    cases hmask
  denied hdeny := by
    rw [hd] at hdeny
    cases hdeny

/-- So far the reports are lawful, and the policy has allowed the prompt. -/
abbrev AllowedSo (classification : DataClassification) (l : List Transmission) : Prop :=
  Lawful classification l ∧ .evaluated .allow ∈ l

/-- What follows an allowed transmission. -/
theorem along_quiet {α : Type} {P : List Transmission → Prop} {Q : α → List Transmission → Prop}
    {E : Exc → List Transmission → Prop} {p : AnalysisProg α} (hQ : ∀ a, Q a l)
    (hE : ∀ x, E x l) : (quiet p).Along P Q E l := Prog.along_observed hQ hE

theorem along_transmit {Q : Unit → List Transmission → Prop}
    {E : Exc → List Transmission → Prop}
    (hd : PolicyEngine.evaluateModelTransmission classification = .allow)
    (h : AllowedSo classification l)
    (hQ : ∀ l', AllowedSo classification l' → Q () l') :
    (transmit job).Along (Lawful classification) Q E l := by
  have hnext : AllowedSo classification (l ++ [.sent job.requestPrompt (promptOf job)]) :=
    ⟨h.1.sent hd h.2, List.mem_append_left _ h.2⟩
  exact ⟨hnext.1, hQ _ hnext⟩

variable {cfg : EngineConfig} {j token attemptId : Uuid} {w : String} {attemptNumber : ℕ}
  {res : ToolResult} {outcome : NormalizationOutcome}

theorem along_completeWatched
    (hd : PolicyEngine.evaluateModelTransmission classification = .allow)
    (h : AllowedSo classification l) :
    (completeWatched cfg job j token w attemptId res).Along (Lawful classification)
      (fun _ _ => True) (fun _ _ => True) l := by
  simp only [completeWatched, Prog.bind_eq, Prog.along_bind]
  refine along_quiet (fun _ => ?_) fun _ => trivial
  refine along_transmit hd h fun l' h' => ?_
  exact along_quiet (fun _ => trivial) fun _ => trivial

theorem along_runPlanWatched
    (hd : PolicyEngine.evaluateModelTransmission classification = .allow)
    (h : AllowedSo classification l) :
    (runPlanWatched cfg classification job j token w attemptId outcome).Along
      (Lawful classification) (fun _ _ => True) (fun _ _ => True) l := by
  simp only [runPlanWatched, Prog.bind_eq, Prog.along_bind, hd]
  refine along_quiet (fun _ => ?_) fun _ => trivial
  refine along_quiet (fun args => ?_) fun _ => trivial
  refine along_quiet (fun _ => ?_) fun _ => trivial
  have hnext : AllowedSo classification (l ++ [.evaluated .allow]) :=
    ⟨h.1.evaluated _, List.mem_append_left _ h.2⟩
  refine ⟨hnext.1, ?_⟩
  refine along_quiet (fun _ => ?_) fun _ => trivial
  rw [if_neg (by decide), Prog.along_bind]
  refine along_quiet (fun res => ?_) fun _ => trivial
  exact along_completeWatched hd hnext

theorem along_runJobWatched
    (hd : PolicyEngine.evaluateModelTransmission classification ≠ .requireMasking) :
    (runJobWatched cfg classification job j token w attemptId attemptNumber).Along
      (Lawful classification) (fun _ _ => True) (fun _ _ => True) [] := by
  simp only [runJobWatched, Prog.bind_eq, Prog.along_bind]
  refine along_quiet (fun _ => ?_) fun _ => trivial
  refine ⟨Lawful.nil.evaluated _, ?_⟩
  cases hdecision : PolicyEngine.evaluateModelTransmission classification with
  | deny =>
    rw [if_pos rfl]
    exact along_quiet (fun _ => trivial) fun _ => trivial
  | requireMasking => exact absurd hdecision hd
  | allow =>
    have hnext : AllowedSo classification ([] ++ [.evaluated .allow]) :=
      ⟨Lawful.nil.evaluated _, List.mem_singleton_self _⟩
    rw [Prog.along_ret, if_neg (by decide), Prog.along_bind, normalizeRequestWatched]
    have hrest : ∀ l', AllowedSo classification l' → (quiet (AnalysisProg.call (·.normalization))).Along
        (Lawful classification) (fun outcome l => (if outcome.needsClarification then
          quiet (askClarification j token w attemptNumber outcome)
        else runPlanWatched cfg classification job j token w attemptId outcome).Along
          (Lawful classification) (fun _ _ => True) (fun _ _ => True) l) (fun _ _ => True) l' := by
      intro l' h'
      refine along_quiet (fun outcome => ?_) fun _ => trivial
      split
      · exact along_quiet (fun _ => trivial) fun _ => trivial
      · exact along_runPlanWatched hdecision h'
    split
    · rw [Prog.bind_eq, Prog.along_bind]
      exact along_transmit hdecision hnext hrest
    · exact hrest _ hnext

theorem along_executeJobWatched
    (hd : PolicyEngine.evaluateModelTransmission classification ≠ .requireMasking) :
    (executeJobWatched cfg classification j token w).Along
      (Lawful classification) (fun _ _ => True) (fun _ _ => True) [] := by
  simp only [executeJobWatched, Prog.bind_eq, Prog.along_bind]
  refine along_quiet (fun _ => ?_) fun _ => trivial
  refine along_quiet (fun b => ?_) fun _ => trivial
  split
  · rw [Prog.along_bind]
    refine along_quiet (fun d => ?_) fun _ => trivial
    split
    · trivial
    · simp only [Prog.along_bind, Prog.along_tryCatch]
      refine along_quiet (fun attemptId => ?_) fun _ => trivial
      refine along_quiet (fun _ => ?_) fun _ => trivial
      refine (along_runJobWatched hd).mono (fun _ _ _ => trivial) fun x l _ => ?_
      exact along_quiet (fun _ => trivial) fun _ => trivial
  · trivial

theorem along_runOnceWatched (cfg : EngineConfig) (w : String) :
    (runOnceWatched cfg w).Along (Lawful .isPublic) (fun _ _ => True) (fun _ _ => True) [] := by
  have hexecute : ∀ j token, (executeJobWatched cfg .isPublic j token w).Along (Lawful .isPublic)
      (fun _ _ => True) (fun _ _ => True) [] := fun j token => along_executeJobWatched (by decide)
  simp only [runOnceWatched, Prog.bind_eq, Prog.along_bind]
  refine along_quiet (fun claimed => ?_) fun _ => trivial
  split
  · exact hexecute _ _
  · rw [Prog.along_bind]
    refine along_quiet (fun recovered => ?_) fun _ => trivial
    split
    · exact hexecute _ _
    · trivial

/-- Every call reports what is lawful. -/
theorem reportsLawful_body (cfg : EngineConfig) (c : AnalysisCall) :
    ((transmissionModel cfg).body c).Along (ReportsLawful c) (fun _ _ => True)
      (fun _ _ => True) [] := by
  cases c with
  | executeJob classification j token w =>
    by_cases hd : PolicyEngine.evaluateModelTransmission classification = .requireMasking
    · refine Prog.Along.imp ?_ (Prog.along_true _)
      rintro l - κ (⟨_, _, _, hc⟩ | ⟨_, hc, -⟩) hκ
      · cases hc
        exact absurd hd hκ
      · cases hc
    · refine Prog.Along.imp ?_ (along_executeJobWatched hd)
      rintro l hl κ (⟨_, _, _, hc⟩ | ⟨_, hc, -⟩) -
      · cases hc
        exact hl
      · cases hc
  | runOnce w =>
    refine Prog.Along.imp ?_ (along_runOnceWatched cfg w)
    rintro l hl κ (⟨_, _, _, hc⟩ | ⟨_, -, rfl⟩) -
    · cases hc
    · exact hl
  | _ => exact along_quiet (fun _ => trivial) fun _ => trivial

end Lawful

/-! ## Concrete runs -/

/-- The process serves `execute_job` with the classification. -/
def runsEngine (p : ℕ) (classification : DataClassification) (s : TransmissionSys) : Bool :=
  (s.proc p).any fun pr =>
    match pr.call with
    | .executeJob classification' _ _ _ => classification' == classification
    | _ => false

theorem runsWith_of_runsEngine {p : ℕ} {classification : DataClassification} {s : TransmissionSys}
    (h : runsEngine p classification s = true) :
    ∃ pr, s.proc p = some pr ∧ RunsWith pr.call classification := by
  obtain ⟨pr, hp, h⟩ := (Option.any_eq_true _ _).mp h
  refine ⟨pr, hp, ?_⟩
  cases hc : pr.call with
  | executeJob classification' j token w =>
    rw [hc] at h
    obtain rfl : classification' = classification := by simpa using h
    exact .inl ⟨j, token, w, rfl⟩
  | _ =>
    rw [hc] at h
    cases h

/-- A run on personal data hands the prompt over as it is. -/
theorem exists_sent_personalData : ∃ s pr,
    (transmissionModel ⟨.ascii⟩).Observed (fun _ _ => True) (emptyAnalysisDb 0) 2
      [.evaluated .requireMasking, .sent "npl" "npl"] s ∧
    s.proc 2 = some pr ∧ RunsWith pr.call .personalData := by
  have hrun : ((transmissionModel ⟨.ascii⟩).observeBy (fun _ _ => true) 2
      (Model.serve 0 (.createAnalysis 5 "npl" none []) 5 { uuid := 7 } ++
        Model.serve 1 (.runOnce "w") 5 { uuid := 9 } ++ [.crash 1] ++
        Model.serve 2 (.executeJob .personalData 7 9 "w") 19 { uuid := 8 }) []
      (Model.idle (emptyAnalysisDb 0))).map (fun x => (x.1, runsEngine 2 .personalData x.2)) =
        some ([.evaluated .requireMasking, .sent "npl" "npl"], true) := by
    decide +kernel
  obtain ⟨⟨l, s⟩, hl, hx⟩ := Option.map_eq_some_iff.mp hrun
  obtain ⟨rfl, hcall⟩ : l = [.evaluated .requireMasking, .sent "npl" "npl"] ∧
      runsEngine 2 .personalData s = true := by simpa using hx
  obtain ⟨pr, hp, hc⟩ := runsWith_of_runsEngine hcall
  exact ⟨s, pr, Model.Observed.start.observeBy (fun _ _ _ => trivial) hl, hp, hc⟩

/-- A prompt that has to be masked was handed over as it is. -/
theorem not_lawful_sent : ¬ Lawful .personalData
    [.evaluated .requireMasking, .sent "npl" "npl"] := fun h =>
  h.masked rfl "npl" "npl" (by simp) rfl

/-- **Transmissions are lawful** in every run of `execute_job` with a classification exactly when
the policy does not require masking for it. Nothing masks a prompt: the decision that asks for it
is treated like the one that allows the prompt as it is. -/
theorem transmission_lawful_iff (classification : DataClassification) :
    (∀ cfg now p l s pr, (transmissionModel cfg).Observed (fun _ _ => True) (emptyAnalysisDb now) p
        l s → s.proc p = some pr → RunsWith pr.call classification → Lawful classification l) ↔
      PolicyEngine.evaluateModelTransmission classification ≠ .requireMasking := by
  refine ⟨fun h hmask => ?_, fun hd cfg now p l s pr hl hp hc => ?_⟩
  · obtain ⟨s, pr, hl, hp, hc⟩ := exists_sent_personalData
    cases classification with
    | personalData => exact not_lawful_sent (h _ _ _ _ s pr hl hp hc)
    | _ => cases hmask
  · have hquiet : ∀ c, ((transmissionModel cfg).body c).report = [] := by
      intro c
      cases c with
      | executeJob classification j token w => rfl
      | runOnce w =>
        simp only [transmissionModel, runOnceWatched, ClaimAuthority.claimNextAnalysisJob]
        split <;> rfl
      | _ => exact Prog.report_observed
    rcases hl.holds_of_body hquiet (reportsLawful_body cfg) hp with rfl | hreports
    · exact .nil
    · exact hreports classification hc hd

/-- **Transmissions are not lawful** in every run. -/
theorem transmission_not_lawful :
    ¬ ∀ classification cfg now p l s pr,
      (transmissionModel cfg).Observed (fun _ _ => True) (emptyAnalysisDb now) p l s →
        s.proc p = some pr → RunsWith pr.call classification → Lawful classification l := by
  intro h
  obtain ⟨s, pr, hl, hp, hc⟩ := exists_sent_personalData
  exact not_lawful_sent (h .personalData _ _ _ _ s pr hl hp hc)

end FinanceIntelligence
