import FinanceIntelligence.JobTransaction

/-!
# The engine keeps the discipline

Every transaction of `execute_job` but one commits a step of the claimed job
after a fence that found the claim in place, whatever the callees answer and
wherever they raise. The exception is the second transaction of the
clarification branch.

The proof follows the run from its claim to its end, transaction by transaction. Between two of
them nothing is known of the job, so each of them starts from what the fence has found.
-/

namespace FinanceIntelligence

namespace Progress

variable {b : Bool} {run : Option Uuid} {r r' : JobRows} {st : AnalysisJobStatus}

/-- The run has opened its attempt. -/
theorem begin (h : Numbered r.events) (id : Uuid) :
    Progress false (some id) r
      ((JobWrite.insertAttempt ⟨id, r.attempts.length + 1, .inProgress⟩).apply r) r.job.status :=
  ⟨⟨r.job.normalizedRequest, rfl⟩, .refl _, h, rfl, rfl, by simp [JobWrite.apply, JobRows.isNormalized],
    rfl⟩

/-- Nothing done yet in this transaction, but an earlier one has stored the
request. -/
theorem understood (h : Numbered r.events) (hr : r.isNormalized = true) :
    Progress true none r r r.job.status :=
  ⟨⟨r.job.normalizedRequest, rfl⟩, .refl _, h, rfl, rfl, fun _ => hr, rfl⟩

theorem events (h : Progress b run r r' st) : r.events <+: r'.events := h.quiet.isPrefix

/-- The other tables do not matter. -/
theorem frame (h : Progress b run r r' st) (r'' : JobRows) (hjob : r''.job = r'.job)
    (hevents : r''.events = r'.events) (hclars : r''.clarifications = r'.clarifications)
    (hsnap : r''.snapshots = r'.snapshots) (hattempts : r''.attempts = r'.attempts) :
    Progress b run r r'' st := by
  refine ⟨?_, ?_, ?_, ?_, ?_, ?_, ?_⟩
  · rw [hjob]
    exact h.job
  · rw [hevents]
    exact h.quiet
  · rw [hevents]
    exact h.numbered
  · rw [hclars]
    exact h.clarifications
  · rw [hsnap]
    exact h.snapshots
  · simp only [JobRows.isNormalized, hjob]
    exact h.request
  · rw [hattempts]
    exact h.attempts

/-- One more event. -/
theorem emit (h : Progress b run r r' st) {e : AnalysisEvent}
    (he : e.sequence = r'.events.length + 1) (hquiet : e.eventType.isTerminal = false) :
    Progress b run r { r' with events := r'.events ++ [e] } st :=
  ⟨h.job, h.quiet.emit hquiet, h.numbered.append he, h.clarifications, h.snapshots, h.request,
    h.attempts⟩

/-- Another status. -/
theorem setStatus (h : Progress b run r r' st) (st' : AnalysisJobStatus) :
    Progress b run r { r' with job := { r'.job with status := st' } } st' := by
  obtain ⟨req, hreq⟩ := h.job
  refine ⟨⟨req, ?_⟩, h.quiet, h.numbered, h.clarifications, h.snapshots, h.request, h.attempts⟩
  change { r'.job with status := st' } = _
  rw [hreq]

/-- The request is stored. -/
theorem setRequest (h : Progress b run r r' st) (req : NormalizedRequest) :
    Progress true run r
      { r' with job := { r'.job with normalizedRequest := .normalized req } } st := by
  obtain ⟨req', hreq⟩ := h.job
  refine ⟨⟨.normalized req, ?_⟩, h.quiet, h.numbered, h.clarifications, h.snapshots,
    fun _ => rfl, h.attempts⟩
  change { r'.job with normalizedRequest := .normalized req } = _
  rw [hreq]

/-- The job row when the run ends. -/
theorem ended (h : Progress b run r r' st) (st' : AnalysisJobStatus) :
    ∃ req, OrchestratorEngine.ended st' r'.job =
      OrchestratorEngine.ended st' { r.job with normalizedRequest := req } := by
  obtain ⟨req, hreq⟩ := h.job
  refine ⟨req, ?_⟩
  rw [hreq]
  rfl

/-- The attempt of the run is closed when it ends. -/
theorem closesRun (h : Progress b run r r' st) {id : Uuid} {status : AttemptStatus}
    (hrun : run = none ∨ run = some id) (hst : status ≠ .inProgress) :
    ClosesRun r.attempts (marked id status r'.attempts) :=
  .own id status run hrun hst (by rw [h.attempts])

end Progress

namespace EngineSafe

open AnalysisProg AnalysisEventEngine ClaimAuthority OrchestratorEngine

variable {cfg : EngineConfig} {c : AnalysisCall} {j token : Uuid} {w : String}
  {m : Option Mark} {σ : Cfg Row Stmt Mark AnalysisDb} {b : Bool} {run : Option Uuid}
  {r r' : JobRows} {st : AnalysisJobStatus}

/-- The process runs the claim `token` of the job `j`. -/
def Running (j token : Uuid) (w : String) (m : Option Mark) : Prop :=
  m = some (.executing j token w)

/-- The rows `r` are locked and have become `r'`. -/
abbrev one (j : Uuid) (r r' : JobRows) : Locked := Locked.none.set j r r'

section Steps

variable {E : Post Exc} (hm : Running j token w m)
  (hE : ∀ x σ', Running j token w σ'.mark → E x σ')
include hm hE

/-- A statement other than an event. -/
theorem wp_statement {wr : JobWrite} {Q : Post Unit} (h : Holds (one j r r') m σ)
    (hwr : ¬ ∃ e, wr = .insertEvent e)
    (hQ : wr.check r' = true → ∀ σ', Holds (one j r (wr.apply r')) m σ' → Q () σ') :
    (analysisDiscipline cfg).wp c (execute (.onJob j wr)) Q E σ := by
  refine wp_execute h (Locked.set_self ..) (fun x σ' hx => hE x σ' (hx ▸ hm))
    (fun he => absurd he hwr) fun hc σ' h' => hQ hc σ' ?_
  rwa [Locked.set_set] at h'

/-- The fence, the job being locked. -/
theorem wp_fence {Q : Post Unit} (h : Holds (one j r r') m σ)
    (hQ : ∀ σ', Holds (one j r r') m σ' → Q () σ') :
    (analysisDiscipline cfg).wp c (assertFencedOwnership j token w) Q E σ := by
  rw [assertFencedOwnership, Prog.bind_eq, Discipline.wp_bind]
  refine wp_lockJob_held h (Locked.set_self ..) fun σ' h' => ?_
  cases ownedBy token w r' with
  | true => exact hQ σ' h'
  | false => exact hE _ _ (h'.mark ▸ hm)

/-- The fence at the beginning of a transaction. -/
theorem wp_fence_first {Q : Post Unit} (h : Holds .none m σ)
    (hQ : ∀ r σ', ownedBy token w r = true → Numbered r.events → Holds (one j r r) m σ' →
      Q () σ') :
    (analysisDiscipline cfg).wp c (assertFencedOwnership j token w) Q E σ := by
  rw [assertFencedOwnership, Prog.bind_eq, Discipline.wp_bind]
  refine wp_lockJob h rfl (fun σ' h' => hE _ _ (h'.mark ▸ hm)) fun r σ' hr hn h' => ?_
  exact hQ r σ' hr hn h'

/-- The fence at the beginning of a later transaction of a run that has stored
its request. -/
theorem wp_fence_again {Q : Post Unit} (h : Holds .none m σ) (hj : Understood j σ.db)
    (hQ : ∀ r σ', ownedBy token w r = true → Numbered r.events → r.isNormalized = true →
      Holds (one j r r) m σ' → Q () σ') :
    (analysisDiscipline cfg).wp c (assertFencedOwnership j token w) Q E σ := by
  rw [assertFencedOwnership, Prog.bind_eq, Discipline.wp_bind]
  refine wp_lockJob_understood h rfl hj (fun σ' h' => hE _ _ (h'.mark ▸ hm))
    fun r σ' hr hn hreq h' => ?_
  exact hQ r σ' hr hn hreq h'

/-- An event. -/
theorem wp_emit {eventType : EventType} {payload : Payload} {attemptId : Option Uuid}
    {Q : Post Unit} (h : Holds (one j r r') m σ) (hp : Progress b run r r' st)
    (hquiet : eventType.isTerminal = false)
    (hQ : ∀ r'' σ', Progress b run r r'' st → Holds (one j r r'') m σ' → Q () σ') :
    (analysisDiscipline cfg).wp c (emitEvent j eventType payload attemptId) Q E σ := by
  refine wp_emitEvent h (Locked.set_self ..) hp.numbered (fun x σ' hx => hE x σ' (hx ▸ hm))
    fun e σ' he htype h' => ?_
  rw [Locked.set_set] at h'
  exact hQ _ σ' (hp.emit he (htype ▸ hquiet)) h'

/-- A validated change of status. -/
theorem wp_advance {current new : AnalysisJobStatus} {Q : Post Unit}
    (h : Holds (one j r r') m σ) (hp : Progress b run r r' st)
    (hQ : ∀ r'' σ', Progress b run r r'' new → Holds (one j r r'') m σ' → Q () σ') :
    (analysisDiscipline cfg).wp c (advance j current new) Q E σ := by
  rw [advance, Prog.bind_eq, Discipline.wp_bind]
  refine wp_validateTransition (fun x => hE x σ (h.mark ▸ hm)) fun _ => ?_
  refine wp_statement hm hE h (by rintro ⟨e, he⟩; cases he) fun _ σ' h' => ?_
  exact hQ _ σ' (hp.setStatus new) h'

/-- A change of an attempt. -/
theorem wp_setAttempt {attemptId : Uuid} {status : AttemptStatus} {Q : Post Unit}
    (h : Holds (one j r r') m σ)
    (hQ : ∀ σ', Holds (one j r { r' with attempts := marked attemptId status r'.attempts }) m σ' →
      Q () σ') :
    (analysisDiscipline cfg).wp c (setAttempt j attemptId status) Q E σ := by
  refine wp_statement hm hE h (by rintro ⟨e, he⟩; cases he) fun _ σ' h' => ?_
  exact hQ σ' h'

end Steps

/-! ## Branches -/

section Branches

variable {E : Post Exc} (hm : Running j token w m)
  (hE : ∀ x σ', Running j token w σ'.mark → E x σ')
include hm hE

/-- A commit of the fenced run. -/
theorem wp_commitEngine {Q : Post Unit} (h : Holds (one j r r') m σ)
    (howned : ownedBy token w r = true) (hn : Numbered r'.events) (hr : EngineChange cfg r r')
    (hQ : ∀ σ', Holds .none m σ' → σ'.db.rows j = some r' → Q () σ') :
    (analysisDiscipline cfg).wp c commit Q E σ := by
  refine wp_commit_rows h (fun i x hx => .inr ?_) fun σ' h' hrows =>
    hQ σ' h' (hrows j _ (Locked.set_self ..))
  obtain ⟨rfl, rfl⟩ := Locked.set_none_apply hx
  exact ⟨r, r', rfl, hn, .engine token w hm howned hr⟩

/-- A policy denial commits the rejected job. -/
theorem wp_rejectByPolicy {attemptId : Uuid} (h : Holds (one j r r') m σ)
    (hp : Progress b (some attemptId) r r' st) (howned : ownedBy token w r = true) :
    (analysisDiscipline cfg).wp c (rejectByPolicy j attemptId) (fun _ _ => True) E σ := by
  simp only [rejectByPolicy, Prog.bind_eq, Discipline.wp_bind]
  refine wp_statement hm hE h (by rintro ⟨e, he⟩; cases he) fun _ σ' h' => ?_
  refine wp_setAttempt hm hE h' fun σ' h' => ?_
  refine wp_emitEvent h' (Locked.set_self ..) hp.numbered (fun x σ' hx => hE x σ' (hx ▸ hm))
    fun e σ' he htype h' => ?_
  rw [Locked.set_set] at h'
  refine wp_commitEngine hm hE h' howned (hp.numbered.append he) ?_ fun _ _ _ => trivial
  exact .ended .rejectedByPolicy (.inl rfl) (hp.ended _) (htype ▸ hp.quiet.announce)
    hp.clarifications hp.snapshots (fun hr => hp.request (.inr hr))
    (hp.closesRun (.inr rfl) (by decide))

/-- The tool runs inside the transaction, or commits it. -/
theorem wp_runTool {Q : Post ToolResult} (h : Holds (one j r r') m σ)
    (hp : Progress true run r r' .executingTools) (howned : ownedBy token w r = true)
    (hQ : ∀ res σ', Holds (one j r r') m σ' ∨ Holds .none m σ' ∧ Understood j σ'.db →
      Q res σ') :
    (analysisDiscipline cfg).wp c runTool Q E σ := by
  simp only [runTool, Prog.bind_eq, Prog.pure_eq, Discipline.wp_bind]
  refine wp_call (fun x => hE x σ (h.mark ▸ hm)) fun outcome => ?_
  -- whatever follows the tool, it follows the commit
  have hcommits : ∀ next : AnalysisProg ToolResult,
      (∀ σ', Holds (one j r r') m σ' ∨ Holds .none m σ' ∧ Understood j σ'.db →
        (analysisDiscipline cfg).wp c next Q E σ') →
      (analysisDiscipline cfg).wp c
        (if outcome.commits = true then commit.bind fun _ => next else next) Q E σ := by
    intro next hnext
    cases outcome.commits with
    | true =>
      simp only [if_true, Discipline.wp_bind]
      exact wp_commitEngine hm hE h howned hp.numbered (.toolCommitted hp)
        fun σ' h hrows => hnext σ' (.inr ⟨h, _, hrows, hp.request (.inl rfl)⟩)
    | false => exact hnext σ (.inl h)
  refine hcommits _ fun σ' hσ' => ?_
  cases outcome.result with
  | some res => exact hQ res σ' hσ'
  | none => exact hE _ σ' (hσ'.elim (fun h => h.mark ▸ hm) fun h => h.1.mark ▸ hm)

/-- The job is locked when the invocation returns, with the rows of the last
commit. -/
theorem wp_invokeTool {args : ToolArguments} {existing : Option ToolResult}
    {Q : Post (ToolResult × ℕ)} (h : Holds (one j r r') m σ)
    (hp : Progress true run r r' .executingTools) (howned : ownedBy token w r = true)
    (hQ : ∀ x run' r r' st σ', run' = none ∨ run' = run → Progress true run' r r' st →
      ownedBy token w r = true → Holds (one j r r') m σ' → Q x σ') :
    (analysisDiscipline cfg).wp c (invokeTool j token w args existing) Q E σ := by
  cases existing with
  | some res => exact hQ (res, 0) run r r' _ σ (.inr rfl) hp howned h
  | none =>
    simp only [invokeTool, Prog.bind_eq, Prog.pure_eq, Discipline.wp_bind]
    refine wp_select h fun start σ' _ h => ?_
    refine wp_runTool hm hE h hp howned fun res σ' h => ?_
    -- the record of the invocation, in the same transaction or in a new one
    have hrecord : ∀ (d : AnalysisDb) run' (r r' : JobRows) st σ', run' = none ∨ run' = run →
        Progress true run' r r' st → ownedBy token w r = true → Holds (one j r r') m σ' →
        (analysisDiscipline cfg).wp c (execute (.onJob j (.insertToolInvocation ⟨args, res⟩)))
          (fun _ => (analysisDiscipline cfg).wp c
            (.ret (res, 1000 * (d.now - start.now))) Q E) E σ' := by
      intro d run' r r' st σ' hrun hp howned h
      refine wp_statement hm hE h (by rintro ⟨e, he⟩; cases he) fun _ σ' h => ?_
      exact hQ _ run' r _ st σ' hrun (hp.frame
        ((JobWrite.insertToolInvocation ⟨args, res⟩).apply r') rfl rfl rfl rfl rfl) howned h
    rcases h with h | ⟨h, hj⟩
    · refine wp_select h fun d σ' _ h => ?_
      exact wp_fence hm hE h fun σ' h => hrecord d run r r' _ σ' (.inr rfl) hp howned h
    · refine wp_select_understood h hj fun d σ' h hj => ?_
      exact wp_fence_again hm hE h hj fun r σ' howned hn hreq h =>
        hrecord d none r r _ σ' (.inl rfl) (.understood hn hreq) howned h

/-- The step of the tool loop: the job is locked when it returns. -/
theorem wp_toolStep {attemptId : Uuid} {args : ToolArguments} {Q : Post ToolResult}
    (h : Holds (one j r r') m σ) (hp : Progress true run r r' .executingTools)
    (howned : ownedBy token w r = true)
    (hQ : ∀ res run' r r' st σ', run' = none ∨ run' = run → Progress true run' r r' st →
      ownedBy token w r = true → Holds (one j r r') m σ' → Q res σ') :
    (analysisDiscipline cfg).wp c (toolStep j token w attemptId args) Q E σ := by
  simp only [toolStep, Prog.bind_eq, Prog.pure_eq, Discipline.wp_bind]
  refine wp_emit hm hE h hp rfl fun r' σ' hp h => ?_
  refine wp_select h fun d σ' _ h => ?_
  refine wp_invokeTool hm hE h hp howned fun x run' r r' st σ' hrun hp howned h => ?_
  exact wp_emit hm hE h hp rfl fun r'' σ' hp h => hQ x.1 run' r r'' st σ' hrun hp howned h

/-- A completed run commits the snapshot whose narrative passed the gates. -/
theorem wp_complete {attemptId : Uuid} {res : ToolResult} (h : Holds (one j r r') m σ)
    (hrun : run = none ∨ run = some attemptId) (hp : Progress true run r r' st)
    (howned : ownedBy token w r = true) :
    (analysisDiscipline cfg).wp c (complete cfg j token w attemptId res) (fun _ _ => True) E σ := by
  simp only [complete, Prog.bind_eq, Discipline.wp_bind]
  refine wp_fence hm hE h fun σ' h => ?_
  refine wp_advance hm hE h hp fun r' σ' hp h => ?_
  refine wp_advance hm hE h hp fun r' σ' hp h => ?_
  refine wp_call (fun x => hE x σ' (h.mark ▸ hm)) fun contentText => ?_
  cases res.resultDatasetId with
  | none => exact hE _ σ' (h.mark ▸ hm)
  | some datasetId =>
    simp only [Discipline.wp_bind]
    refine wp_fence hm hE h fun σ' h => ?_
    refine wp_advance hm hE h hp fun r' σ' hp h => ?_
    generalize hnarrative : (contentText.filter (· ≠ "")).getD "Analiz tamamlandı." = narrative
    cases hgates : QualityGateEngine.runAllGates cfg.chars narrative (datasetSummary datasetId) with
    | error message => exact hE _ σ' (h.mark ▸ hm)
    | ok gates =>
      simp only [Discipline.wp_bind]
      refine wp_statement hm hE h (by rintro ⟨e, he⟩; cases he) fun _ σ' h => ?_
      replace hp := hp.frame ((JobWrite.insertGateResults gates).apply r') rfl rfl rfl rfl rfl
      refine wp_fence hm hE h fun σ' h => ?_
      refine wp_validateTransition (fun x => hE x σ' (h.mark ▸ hm)) fun _ => ?_
      refine wp_select h fun d σ' _ h => ?_
      refine wp_updateWhere_held h (Locked.set_self ..) (fun x σ' hx => hE x σ' (hx ▸ hm))
        (fun σ' h => ?_) fun σ' h => hE _ σ' (h.mark ▸ hm)
      rw [Locked.set_set] at h
      simp only [Bool.not_true, Bool.false_eq_true, if_false, Discipline.wp_bind]
      refine wp_setAttempt hm hE h fun σ' h => ?_
      refine wp_uuid4 fun id => ?_
      refine wp_statement hm hE h (by rintro ⟨e, he⟩; cases he) fun hnew σ' h => ?_
      refine wp_emitEvent h (Locked.set_self ..) hp.numbered (fun x σ' hx => hE x σ' (hx ▸ hm))
        fun e σ' he htype h => ?_
      rw [Locked.set_set] at h
      have hold : r'.snapshots = [] := by simpa [JobWrite.check, JobWrite.apply] using hnew
      refine wp_commitEngine hm hE h howned (hp.numbered.append he) ?_ fun _ _ _ => trivial
      refine .completed id narrative datasetId gates hgates (hp.ended _)
        (htype ▸ hp.quiet.announce) hp.clarifications ?_ ?_
        (hp.request (.inl rfl)) (hp.closesRun hrun (by decide))
      · rw [← hp.snapshots]
        exact hold
      · simp [JobWrite.apply, hold]

/-- From the normalized request on. -/
theorem wp_runPlan {classification : DataClassification} {attemptId : Uuid}
    {outcome : NormalizationOutcome} (h : Holds (one j r r') m σ)
    (hp : Progress b (some attemptId) r r' st) (howned : ownedBy token w r = true) :
    (analysisDiscipline cfg).wp c (runPlan cfg classification j token w attemptId outcome)
      (fun _ _ => True) E σ := by
  simp only [runPlan, Prog.bind_eq, Discipline.wp_bind]
  refine wp_statement hm hE h (by rintro ⟨e, he⟩; cases he) fun _ σ' h => ?_
  replace hp := hp.setRequest (RequestPlan.normReq outcome)
  refine wp_call (fun x => hE x σ' (h.mark ▸ hm)) fun _ => ?_
  refine wp_fence hm hE h fun σ' h => ?_
  refine wp_advance hm hE h hp fun r' σ' hp h => ?_
  refine wp_emit hm hE h hp rfl fun r' σ' hp h => ?_
  -- the arguments come from the outcome or from the tenant's tables
  have hargs : ∀ Q : Post ToolArguments, (∀ args, Q args σ') →
      (analysisDiscipline cfg).wp c (planArguments outcome) Q E σ' := by
    intro Q hQ
    rw [planArguments]
    split
    · simp only [Prog.bind_eq, Prog.pure_eq, Discipline.wp_bind]
      exact wp_call (fun x => hE x σ' (h.mark ▸ hm)) fun _ =>
        wp_call (fun x => hE x σ' (h.mark ▸ hm)) fun _ => hQ _
    · exact hQ _
  refine hargs _ fun args => ?_
  refine wp_statement hm hE h (by rintro ⟨e, he⟩; cases he) fun _ σ' h => ?_
  replace hp := hp.frame ((JobWrite.insertPlan (.engine args)).apply r') rfl rfl rfl rfl rfl
  refine wp_fence hm hE h fun σ' h => ?_
  refine wp_advance hm hE h hp fun r' σ' hp h => ?_
  generalize PolicyEngine.evaluateModelTransmission classification = decision
  refine wp_statement hm hE h (by rintro ⟨e, he⟩; cases he) fun _ σ' h => ?_
  replace hp := hp.frame ((JobWrite.insertPolicyDecision ⟨decision, classification⟩).apply r')
    rfl rfl rfl rfl rfl
  split
  · simp only [Discipline.wp_bind]
    refine wp_fence hm hE h fun σ' h => ?_
    exact wp_rejectByPolicy hm hE h hp howned
  · simp only [Discipline.wp_bind]
    refine wp_fence hm hE h fun σ' h => ?_
    refine wp_advance hm hE h hp fun r' σ' hp h => ?_
    refine wp_advance hm hE h hp fun r' σ' hp h => ?_
    refine wp_advance hm hE h hp fun r' σ' hp h => ?_
    refine wp_toolStep hm hE h hp howned fun res run' r r' st σ' hrun hp howned h => ?_
    exact wp_complete hm hE h hrun hp howned

/-- The clarification branch commits the question under the fence and raises. -/
theorem wp_askClarification {attemptId : Uuid} {attemptNumber : ℕ}
    {outcome : NormalizationOutcome} (h : Holds (one j r r') m σ)
    (hp : Progress b (some attemptId) r r' st) (hnumber : attemptNumber = r.attempts.length + 1)
    (howned : ownedBy token w r = true) :
    (analysisDiscipline cfg).wp c
      (askClarification j token w attemptNumber outcome) (fun _ _ => True) E σ := by
  simp only [askClarification, ClarificationService.requireClarification,
    ClarificationService.lockJobRows, ClarificationService.setStatus, Prog.bind_eq,
    Discipline.wp_bind]
  refine wp_fence hm hE h fun σ' h => ?_
  refine wp_lockJob_held h (Locked.set_self ..) fun σ' h => ?_
  simp only [if_true, Discipline.wp_bind]
  refine wp_select h fun d σ' hd h => ?_
  rw [show d.rows j = some r' from hd j _ (Locked.set_self ..)]
  simp only [Prog.pure_eq, Discipline.wp_ret]
  refine wp_validateTransition (fun x => hE x σ' (h.mark ▸ hm)) fun _ => ?_
  refine wp_select h fun d σ' _ h => ?_
  refine wp_statement hm hE h (by rintro ⟨e, he⟩; cases he) fun _ σ' h => ?_
  refine wp_uuid4 fun id => ?_
  refine wp_statement hm hE h (by rintro ⟨e, he⟩; cases he) fun hone σ' h => ?_
  have hnone : ∀ x ∈ r.clarifications, x.status ≠ .awaiting := by
    intro x hx
    rw [← hp.clarifications] at hx
    simp only [JobWrite.check, JobWrite.apply, Bool.or_eq_true, bne_self_eq_false,
      Bool.false_eq_true, false_or, List.all_eq_true, bne_iff_ne] at hone
    exact hone x hx
  have hlength : attemptNumber = r'.attempts.length := by
    rw [hp.attempts, hnumber, opened, List.length_append, List.length_singleton]
  refine wp_emitEvent h (Locked.set_self ..) hp.numbered (fun x σ' hx => hE x σ' (hx ▸ hm))
    fun e σ' he htype h => ?_
  rw [Locked.set_set] at h
  refine wp_commitEngine hm hE h howned (hp.numbered.append he) (.clarified _ (by rfl)
    (hp.setStatus .needsClarification).job (hp.quiet.emit (htype ▸ rfl))
    (congrArg (· ++ [_]) hp.clarifications) hp.snapshots (fun hr => hp.request (.inr hr)) hnone
    ⟨attemptId, hp.attempts⟩ hlength) fun σ' h _ => ?_
  exact hE _ σ' (h.mark ▸ hm)

/-- The body of the `try`. -/
theorem wp_runJob {classification : DataClassification} {status : AnalysisJobStatus}
    {attemptId : Uuid} {attemptNumber : ℕ} (h : Holds (one j r r') m σ)
    (hp : Progress b (some attemptId) r r' st) (hnumber : attemptNumber = r.attempts.length + 1)
    (howned : ownedBy token w r = true) :
    (analysisDiscipline cfg).wp c
      (runJob cfg classification j token w status attemptId attemptNumber)
      (fun _ _ => True) E σ := by
  simp only [runJob, Prog.bind_eq, Discipline.wp_bind]
  refine wp_fence hm hE h fun σ' h => ?_
  refine wp_emit hm hE h hp rfl fun r' σ' hp h => ?_
  refine wp_fence hm hE h fun σ' h => ?_
  refine wp_advance hm hE h hp fun r' σ' hp h => ?_
  refine wp_emit hm hE h hp rfl fun r' σ' hp h => ?_
  generalize PolicyEngine.evaluateModelTransmission classification = decision
  split
  · simp only [Discipline.wp_bind]
    refine wp_fence hm hE h fun σ' h => ?_
    refine wp_statement hm hE h (by rintro ⟨e, he⟩; cases he) fun _ σ' h => ?_
    replace hp := hp.frame
      ((JobWrite.insertPolicyDecision ⟨decision, classification⟩).apply r') rfl rfl rfl rfl rfl
    exact wp_rejectByPolicy hm hE h hp howned
  · simp only [Discipline.wp_bind]
    refine wp_call (fun x => hE x σ' (h.mark ▸ hm)) fun outcome => ?_
    split
    · exact wp_askClarification hm hE h hp hnumber howned
    · exact wp_runPlan hm hE h hp howned

/-- The failure transaction. -/
theorem wp_persistFailure {attemptId : Uuid} {x : Exc} (h : Holds .none m σ) :
    (analysisDiscipline cfg).wp c (persistFailure j token w attemptId x) (fun _ _ => True) E σ := by
  simp only [persistFailure, Prog.bind_eq, Discipline.wp_bind]
  refine wp_fence_first hm hE h fun r σ' howned hn h => ?_
  refine wp_updateWhere_held h (Locked.set_self ..) (fun x σ' hx => hE x σ' (hx ▸ hm))
    (fun σ' h => ?_) fun σ' h => hE _ σ' (h.mark ▸ hm)
  rw [Locked.set_set] at h
  simp only [Bool.not_true, Bool.false_eq_true, if_false, Discipline.wp_bind]
  refine wp_select h fun d σ' _ h => ?_
  -- the event is the last statement, whether or not the attempt was ever committed
  have hemit : ∀ attempts attemptId' σ', ClosesRun r.attempts attempts →
      Holds (one j r { r with job := ended .failed r.job, attempts }) m σ' →
      (analysisDiscipline cfg).wp c (emitEvent j .failed (failurePayload x) attemptId')
        (fun _ => (analysisDiscipline cfg).wp c commit (fun _ _ => True) E) E σ' := by
    intro attempts attemptId' σ' hattempts h
    refine wp_emitEvent h (Locked.set_self ..) hn (fun x σ' hx => hE x σ' (hx ▸ hm))
      fun e σ' he htype h => ?_
    rw [Locked.set_set] at h
    refine wp_commitEngine hm hE h howned (hn.append he) ?_ fun _ _ _ => trivial
    exact .ended .failed (.inr rfl) ⟨r.job.normalizedRequest, rfl⟩
      (htype ▸ (Quiet.refl r.events).announce) rfl rfl (fun hr => hr) hattempts
  split
  · simp only [Discipline.wp_bind]
    exact wp_setAttempt hm hE h fun σ' h =>
      hemit _ _ σ' (.own attemptId .failed none (.inl rfl) (by decide) rfl) h
  · simp only [Discipline.wp_bind]
    exact hemit _ _ σ' (.rolledBack rfl) h

end Branches

/-- The handlers of the `try`; they begin with a rollback, so they may start
anywhere. -/
theorem wp_onException {attemptId : Uuid} {x : Exc} (hm : Running j token w σ.mark) :
    (analysisDiscipline cfg).wp c (onException j token w attemptId x) (fun _ _ => True)
      (fun _ _ => True) σ := by
  simp only [onException, Prog.bind_eq, Discipline.wp_bind]
  refine wp_rollback fun σ' h => ?_
  split
  · trivial
  · simp only [Discipline.wp_bind, Discipline.wp_tryCatch]
    refine Discipline.wp_mono (fun _ _ _ => trivial) (fun _ _ h => h)
      (wp_persistFailure hm (fun y σ'' hm'' => ?_) h)
    split
    · exact wp_rollback fun _ _ => trivial
    · trivial

/-- **The engine keeps the discipline.** -/
theorem wp_executeJob {classification : DataClassification} (h : Holds .none m σ) :
    (analysisDiscipline cfg).wp c (executeJob cfg classification j token w) (fun _ _ => True)
      (fun _ _ => True) σ := by
  simp only [executeJob, Prog.bind_eq, Discipline.wp_bind]
  refine wp_note h (fun _ _ => trivial) fun σ' h => ?_
  have hm : Running j token w (some (.executing j token w)) := rfl
  refine wp_fence_first hm (fun _ _ _ => trivial) h fun r σ' howned hn h => ?_
  refine wp_lockJob_held h (Locked.set_self ..) fun σ' h => ?_
  split
  · simp only [Discipline.wp_bind]
    refine wp_select h fun d σ' hd h => ?_
    rw [show d.rows j = some r from hd j _ (Locked.set_self ..)]
    simp only [Discipline.wp_bind]
    refine wp_uuid4 fun attemptId => ?_
    refine wp_statement hm (fun _ _ _ => trivial) h (by rintro ⟨e, he⟩; cases he) fun _ σ' h => ?_
    rw [Discipline.wp_tryCatch]
    exact wp_runJob hm (fun x σ' hx => wp_onException hx) h (.begin hn attemptId) rfl howned
  · trivial

end EngineSafe

end FinanceIntelligence
