import FinanceIntelligence.CallsSafe

/-!
# Runs of the analysis plane

The states that the plane reaches from an empty database, and what one step of
it does to a job: nothing, or a `JobStep` that a process commits.

`rows_invariant` is the one induction over runs: what holds of a new job and is kept by each
`JobStep` holds of every job that is ever there.
-/

namespace FinanceIntelligence

section Runs

variable {cfg : EngineConfig} {now : ℕ}

/-- A state of the analysis plane. -/
abbrev AnalysisSys := Sys Row Stmt Answer Mark AnalysisDb Exc AnalysisCall

/-- The states that the analysis plane reaches from an empty database. -/
abbrev AnalysisReachable (cfg : EngineConfig) (now : ℕ) : AnalysisSys → Prop :=
  (analysisModel cfg).Reachable (emptyAnalysisDb now)

/-- Reachable states keep the discipline. -/
theorem analysis_safe {s : AnalysisSys} (h : AnalysisReachable cfg now s) :
    (analysisDiscipline cfg).Safe s :=
  (analysisDiscipline_sound cfg).safe (emptyAnalysisDb_inv now) h

/-- A job never goes away. -/
theorem RowsChange.of_some {c : AnalysisCall} {m : Option Mark} {j : Uuid} {r : JobRows}
    {o : Option JobRows} (h : RowsChange cfg c m j (some r) o) :
    ∃ r', o = some r' ∧ (r' = r ∨ JobStep cfg c m j r r') := by
  cases h with
  | same => exact ⟨r, rfl, .inl rfl⟩
  | step h => exact ⟨_, rfl, .inr h⟩

/-- A change of a job creates it or is a step of it. -/
theorem RowsChange.cases_of_ne {c : AnalysisCall} {m : Option Mark} {j : Uuid}
    {o o' : Option JobRows} (h : RowsChange cfg c m j o o') (hne : o' ≠ o) :
    (∃ user prompt key documents, c = .createAnalysis user prompt key documents) ∧
        (o = none ∧ ∃ job, job.Fresh ∧ o' = some { job }) ∨
      ∃ r r', o = some r ∧ o' = some r' ∧ JobStep cfg c m j r r' := by
  cases h with
  | same => exact absurd rfl hne
  | created user prompt key documents job hc hjob =>
    exact .inl ⟨⟨user, prompt, key, documents, hc⟩, rfl, job, hjob, rfl⟩
  | step h => exact .inr ⟨_, _, rfl, rfl, h⟩

/-- **One step of the plane**: each job is as it was, or a process that is named
commits a change of it. -/
theorem rows_step {s s' : AnalysisSys} (h : AnalysisReachable cfg now s)
    {a : Act Answer AnalysisCall ℕ} (hs : (analysisModel cfg).step a s = some s') (j : Uuid) :
    s'.db.rows j = s.db.rows j ∨ ∃ pr, Model.Commits a s pr ∧
      s'.db = analysisSchema.view pr.pending s.db ∧
      RowsChange cfg pr.call pr.mark j (s.db.rows j) (s'.db.rows j) := by
  rcases (analysis_safe h).step_db hs with hdb | ⟨e, -, hdb⟩ | ⟨pr, ha, hview, hg⟩
  · exact .inl (by rw [hdb])
  · exact .inl (by rw [hdb]; rfl)
  · exact .inr ⟨pr, ha, hview, hg.2 j⟩

/-- One step of the plane, for a job that exists. -/
theorem job_step {s s' : AnalysisSys} (h : AnalysisReachable cfg now s)
    {a : Act Answer AnalysisCall ℕ} (hs : (analysisModel cfg).step a s = some s') {j : Uuid}
    {r : JobRows} (hr : s.db.rows j = some r) :
    ∃ r', s'.db.rows j = some r' ∧ (r' = r ∨ ∃ pr, Model.Commits a s pr ∧
      (analysisSchema.view pr.pending s.db).rows j = some r' ∧
      JobStep cfg pr.call pr.mark j r r') := by
  rcases rows_step h hs j with hsame | ⟨pr, ha, hview, hchange⟩
  · exact ⟨r, hsame.trans hr, .inl rfl⟩
  · rw [hr] at hchange
    obtain ⟨r', hr', hstep⟩ := hchange.of_some
    refine ⟨r', hr', hstep.imp_right fun hstep => ⟨pr, ha, ?_, hstep⟩⟩
    rw [← hview, hr']

/-- **Invariants of a job**: what holds of every new job and is kept by every
step of a job holds of every job in every state of the runs. -/
theorem rows_invariant {ok : Act Answer AnalysisCall ℕ → AnalysisSys → Prop}
    {P : Uuid → JobRows → Prop} (hnew : ∀ j job, job.Fresh → P j { job })
    (hstep : ∀ {s a pr j r r'}, ok a s → Model.Commits a s pr → s.db.rows j = some r →
      (analysisSchema.view pr.pending s.db).rows j = some r' →
      JobStep cfg pr.call pr.mark j r r' → P j r → P j r')
    {s : AnalysisSys} (h : (analysisModel cfg).ReachableBy ok (emptyAnalysisDb now) s) :
    ∀ j r, s.db.rows j = some r → P j r := by
  refine h.invariant (P := fun s => ∀ j r, s.db.rows j = some r → P j r)
    (fun j r hr => by cases hr) fun {s s' a} h ih hok hs j r' hr' => ?_
  rcases hr : s.db.rows j with _ | r
  · rcases rows_step h.reachable hs j with hsame | ⟨pr, -, -, hchange⟩
    · rw [hsame, hr] at hr'
      cases hr'
    · rw [hr, hr'] at hchange
      cases hchange with
      | created _ _ _ _ job _ hjob => exact hnew j job hjob
  · obtain ⟨r₁, hr₁, rfl | ⟨pr, hcommit, hview, hstep'⟩⟩ := job_step h.reachable hs hr
    · rw [hr₁] at hr'
      exact Option.some.inj hr' ▸ ih j r₁ hr
    · rw [hr₁] at hr'
      obtain rfl := Option.some.inj hr'
      exact hstep hok hcommit hr hview hstep' (ih j r hr)

/-- **Histories of a job**: what every step of a job keeps of its rows is kept in
every later state. -/
theorem rows_later (Rel : JobRows → JobRows → Prop) (hrefl : ∀ r, Rel r r)
    (htrans : ∀ {r₁ r₂ r₃}, Rel r₁ r₂ → Rel r₂ r₃ → Rel r₁ r₃)
    (hstep : ∀ {c m j r r'}, JobStep cfg c m j r r' → Rel r r') {s s' : AnalysisSys}
    (h : AnalysisReachable cfg now s) (hl : (analysisModel cfg).Later s s') {j : Uuid}
    {r : JobRows} (hr : s.db.rows j = some r) : ∃ r', s'.db.rows j = some r' ∧ Rel r r' := by
  induction hl with
  | refl => exact ⟨r, hr, hrefl r⟩
  | tail hl hs ih =>
    obtain ⟨a, -, ha⟩ := hs
    obtain ⟨r₁, hr₁, hkept⟩ := ih
    obtain ⟨r₂, hr₂, rfl | ⟨_, -, -, h₂⟩⟩ := job_step (h.later hl) ha hr₁
    · exact ⟨r₂, hr₂, hkept⟩
    · exact ⟨r₂, hr₂, htrans hkept (hstep h₂)⟩

end Runs

/-- A step publishes nothing, or the first snapshot: one that passed the gates,
of a run that stored its request, or one of the save tool. -/
theorem JobStep.snapshots {cfg : EngineConfig} {c : AnalysisCall} {m : Option Mark} {j : Uuid}
    {r r' : JobRows} (h : JobStep cfg c m j r r') :
    r'.snapshots = r.snapshots ∨ r.snapshots = [] ∧
      ((∃ id narrative datasetId,
        (∃ gates, QualityGateEngine.runAllGates cfg.chars narrative
          (OrchestratorEngine.datasetSummary datasetId) = .ok gates) ∧
        r'.isNormalized = true ∧ r'.snapshots = [.engine id narrative datasetId]) ∨
        ∃ id summary, r'.snapshots = [.saved id summary]) := by
  cases h with
  | claim w token now _ _ _ hr' => exact .inl (by rw [hr'])
  | recover w token now _ _ _ hr' =>
    obtain ⟨attempts, rfl⟩ := hr'
    exact .inl rfl
  | renew token w lease _ _ hr' => exact .inl (by rw [hr'])
  | engine token w _ _ hr' =>
    cases hr' with
    | toolCommitted h => exact .inl h.snapshots
    | clarified _ _ _ _ _ hsnap _ => exact .inl hsnap
    | ended _ _ _ _ _ hsnap _ => exact .inl hsnap
    | completed id narrative datasetId gates hgates _ _ _ hold hsnap hreq =>
      exact .inr ⟨hold, .inl ⟨id, narrative, datasetId, ⟨gates, hgates⟩, hreq, hsnap⟩⟩
  | answerExpired _ _ _ _ _ _ _ hsnap => exact .inl hsnap
  | answered _ _ _ _ _ _ _ hsnap => exact .inl hsnap
  | clarificationCancelled _ _ _ _ _ _ hsnap => exact .inl hsnap
  | clarificationExpired _ _ _ _ hsnap => exact .inl hsnap
  | analysisCancelled user _ hr' => exact .inl (by rw [hr'])
  | saved summary id _ hold hr' => exact .inr ⟨hold, .inr ⟨id, summary, by rw [hr']⟩⟩

/-! ## Two answers of the normalizer -/

/-- "Akbank 2025-Q4 toplam aktifler" is understood: the tenant has the bank as its
institution 1 and the quarter as its period 2. -/
def assetsUnderstood : NormalizationOutcome where
  normalizedRequest := some
    ⟨.singlePeriodAnalysis, ["Akbank"], ["2025-Q4"], ["TOTAL_ASSETS"], .solo⟩
  matchedInstitutionIds := [1]
  matchedPeriodIds := [2]

/-- "2025-Q4" names no institution, and the creator is asked for one. -/
def institutionAsked : NormalizationOutcome where
  needsClarification := true
  clarificationCode := some "INSTITUTION_REQUIRED"
  clarificationPromptKey := some "NO_TENANT_INSTITUTION_FOUND"
  clarificationQuestion := some
    "İstemi karşılayacak aktif kurum bulunamadı. Lütfen analiz edilecek kurumu seçiniz."
  allowedResponseSchema := .institutionId [1]

end FinanceIntelligence
