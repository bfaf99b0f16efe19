import FinanceIntelligence.JobRuns

/-!
# Terminal statuses

Every writer that reads the status under the row lock, or whose update names
the statuses it may replace, leaves a job that has ended as it is. Two writers
do neither: `cancel_analysis` validates a status it has read without a lock, and
`SaveAnalysisTool` validates none. A job that has ended keeps its status in every
run in which these two commit on no job that ended otherwise.

* `terminalStatus_final` — this, over runs of **all calls** of the plane.
-/

namespace FinanceIntelligence

open ClaimAuthority

theorem not_isTerminal_of_ownedBy {token : Uuid} {w : String} {r : JobRows}
    (h : ownedBy token w r = true) : r.job.status.isTerminal = false := by
  simp only [ownedBy, Bool.and_eq_true] at h
  exact AnalysisJobStatus.not_isTerminal_of_isWorking h.2

/-- **One step of a job that has ended**: its status stays, unless one of the two
writers replaces it. -/
theorem JobStep.status_of_isTerminal {cfg : EngineConfig} {c : AnalysisCall} {m : Option Mark}
    {j : Uuid} {r r' : JobRows} (h : JobStep cfg c m j r r')
    (ht : r.job.status.isTerminal = true) :
    r'.job.status = r.job.status ∨
      (∃ user, c = .cancelAnalysis j user) ∧ r'.job.status = .cancelled ∨
      (∃ summary, c = .saveAnalysis j summary) ∧ r'.job.status = .completed := by
  have hwaits : r.job.status ≠ .needsClarification := by
    intro hst
    rw [hst] at ht
    cases ht
  cases h with
  | claim w token now _ _ hr =>
    simp only [claimable, Bool.and_eq_true, beq_iff_eq] at hr
    rw [hr.1.1.1] at ht
    cases ht
  | recover w token now _ _ hr =>
    obtain ⟨t, hr⟩ := hr
    simp only [recoverable, Bool.and_eq_true] at hr
    have hworking := AnalysisJobStatus.isWorking_of_isRecoverable hr.1.1.1
    rw [AnalysisJobStatus.not_isTerminal_of_isWorking hworking] at ht
    cases ht
  | renew token w lease _ hr =>
    rw [not_isTerminal_of_ownedBy hr] at ht
    cases ht
  | engine token w _ hr =>
    rw [not_isTerminal_of_ownedBy hr] at ht
    cases ht
  | answerExpired _ _ _ _ hr => exact absurd hr hwaits
  | answered _ _ _ _ hr => exact absurd hr hwaits
  | clarificationCancelled _ _ _ hr =>
    rw [hr] at ht
    cases ht
  | clarificationExpired _ _ hjob =>
    rcases hjob with ⟨hr, -⟩ | ⟨-, hjob⟩
    · exact absurd hr hwaits
    · exact .inl (by rw [hjob])
  | analysisCancelled user hc hr' =>
    subst hr'
    exact .inr (.inl ⟨⟨user, hc⟩, rfl⟩)
  | saved summary id hc _ hr' =>
    subst hr'
    exact .inr (.inr ⟨⟨summary, hc⟩, rfl⟩)

/-- `cancel_analysis` and `SaveAnalysisTool` commit on no job that has ended with
another status than the one they write. -/
def NoLateStatusWrite (a : Act Answer AnalysisCall ℕ) (s : AnalysisSys) : Prop :=
  ∀ pr j r, Model.Commits a s pr → s.db.rows j = some r → r.job.status.isTerminal = true →
    (∀ user, pr.call = .cancelAnalysis j user → r.job.status = .cancelled) ∧
      ∀ summary, pr.call = .saveAnalysis j summary → r.job.status = .completed

/-- **Terminal statuses are final** in every run without a late status write. The condition is on
two calls only, and on those of their commits that meet a job which has ended otherwise; every
other call may do as it likes. -/
theorem terminalStatus_final {cfg : EngineConfig} {now : ℕ} {s s' : AnalysisSys}
    (h : (analysisModel cfg).ReachableBy NoLateStatusWrite (emptyAnalysisDb now) s)
    (hl : (analysisModel cfg).LaterBy NoLateStatusWrite s s') {j : Uuid} {r : JobRows}
    (hr : s.db.rows j = some r) (ht : r.job.status.isTerminal = true) :
    ∃ r', s'.db.rows j = some r' ∧ r'.job.status = r.job.status := by
  induction hl with
  | refl => exact ⟨r, hr, rfl⟩
  | tail hl hs ih =>
    obtain ⟨a, hok, ha⟩ := hs
    obtain ⟨r₁, hr₁, hst⟩ := ih
    have ht₁ : r₁.job.status.isTerminal = true := hst ▸ ht
    obtain ⟨r₂, hr₂, rfl | ⟨pr, hcommit, -, hstep⟩⟩ := job_step (h.later hl).reachable ha hr₁
    · exact ⟨r₂, hr₂, hst⟩
    · obtain ⟨hcancel, hsave⟩ := hok pr j r₁ hcommit hr₁ ht₁
      refine ⟨r₂, hr₂, Eq.trans ?_ hst⟩
      rcases hstep.status_of_isTerminal ht₁ with hsame | ⟨⟨user, hc⟩, hst'⟩ | ⟨⟨summary, hc⟩, hst'⟩
      · exact hsame
      · rw [hst', hcancel user hc]
      · rw [hst', hsave summary hc]

/-- A test that no step of the two writers passes. -/
def byOtherCall (a : Act Answer AnalysisCall ℕ) (s : AnalysisSys) : Bool :=
  match a with
  | .exec p _ => (s.proc p).all fun pr =>
    match pr.call with
    | .cancelAnalysis _ _ | .saveAnalysis _ _ => false
    | _ => true
  | _ => true

/-- The other calls write no status late. -/
theorem noLateStatusWrite_of_otherCall (a : Act Answer AnalysisCall ℕ) (s : AnalysisSys)
    (h : byOtherCall a s = true) : NoLateStatusWrite a s := by
  rintro pr j r ⟨p, i, rfl, hp, -⟩ - -
  simp only [byOtherCall, hp, Option.all_some] at h
  refine ⟨fun user hc => ?_, fun summary hc => ?_⟩ <;> simp [hc] at h

/-- A job that was completed is still completed after it was claimed in vain. -/
theorem terminalStatus_final_completed :
    ∃ (s s' : AnalysisSys) (r r' : JobRows), s.db.rows 7 = some r ∧
      r.job.status = .completed ∧ s'.db.rows 7 = some r' ∧ r'.job.status = r.job.status := by
  let M := analysisModel ⟨.ascii⟩
  have hrun : ((M.runBy byOtherCall
      (Model.serve 0 (.createAnalysis 5 "Akbank 2025-Q4 toplam aktifler" none []) 5 { uuid := 7 } ++
        Model.serve 1 (.runOnce "w") 62 { uuid := 9, normalization := assetsUnderstood })
      (Model.idle (emptyAnalysisDb 100))).bind fun s =>
        (M.runBy byOtherCall (Model.serve 1 (.runOnce "w") 4 { uuid := 0 }) s).bind fun s' =>
        (s.db.rows 7).map fun r => r.job.status) = some .completed := by
    decide +kernel
  obtain ⟨s, hs, hr⟩ := Option.bind_eq_some_iff.mp hrun
  obtain ⟨s', hs', hr⟩ := Option.bind_eq_some_iff.mp hr
  obtain ⟨r, hr, hst⟩ := Option.map_eq_some_iff.mp hr
  have h := Model.ReachableBy.later .start (Model.LaterBy.of_runBy noLateStatusWrite_of_otherCall hs)
  have hl := Model.LaterBy.of_runBy noLateStatusWrite_of_otherCall hs'
  obtain ⟨r', hr', hst'⟩ := terminalStatus_final h hl hr (by rw [hst]; rfl)
  exact ⟨s, s', r, r', hr, hst, hr', hst'⟩

/-- A request to cancel reads a job that waits, the job is completed, and the
request commits. -/
theorem terminalStatus_not_final :
    ¬ ∀ (cfg : EngineConfig) (now : ℕ) (s s' : AnalysisSys) (j : Uuid) (r r' : JobRows),
      AnalysisReachable cfg now s → (analysisModel cfg).Later s s' → s.db.rows j = some r →
        r.job.status.isTerminal = true → s'.db.rows j = some r' → r'.job.status = r.job.status := by
  intro hfinal
  have hrun : (((analysisModel ⟨.ascii⟩).run
      (Model.serve 0 (.createAnalysis 5 "Akbank 2025-Q4 toplam aktifler" none []) 5 { uuid := 7 } ++
        Model.serve 1 (.cancelAnalysis 7 5) 1 { uuid := 0 } ++
        Model.serve 2 (.runOnce "w") 62 { uuid := 9, normalization := assetsUnderstood })
      (Model.idle (emptyAnalysisDb 100))).bind fun s =>
      ((analysisModel ⟨.ascii⟩).run (List.replicate 3 (.exec 1 { uuid := 0 })) s).map fun s' =>
        (s.db.rows 7).any (fun r => r.job.status == .completed) &&
          (s'.db.rows 7).any (fun r => r.job.status == .cancelled)) = some true := by
    decide +kernel
  obtain ⟨s, s', h, hl, hp⟩ := Model.exists_of_run _ _ _ hrun
  simp only [Bool.and_eq_true, Option.any_eq_true_iff_get, beq_iff_eq] at hp
  obtain ⟨⟨hr, hst⟩, hr', hst'⟩ := hp
  have := hfinal _ _ s s' 7 _ _ h hl (Option.some_get hr).symm (by rw [hst]; rfl)
    (Option.some_get hr').symm
  rw [hst, hst'] at this
  cases this

end FinanceIntelligence
