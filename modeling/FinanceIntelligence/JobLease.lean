import FinanceIntelligence.TerminalStatus

/-!
# Leases

A job that has not ended and does not wait for a person waits for a worker, or
has an owner under a lease. Only the end of the job clears the lease: a question,
its answer and the commit of the tool leave it as it is (`Kept`).

When the lease passes without a renewal, another worker is given the job if
`recover_next_stale_analysis_job` takes it. It takes a job once, and only before
`EXECUTING_TOOLS`: from there on the tool may have had effects that a second run
would repeat. A job that a crash leaves behind that boundary, or a second crash
before it, is taken by no claim and no recovery (`Leased.notStranded_iff`): it is left
to a person, for whom the step to `CANCELLED` is open.
-/

namespace FinanceIntelligence

open ClaimAuthority

/-- A worker can take the job now, or it has an owner under a lease, and once the
lease has passed another worker can. What a person does to the job, and what its
owner still does to it, is not counted. -/
inductive NotStranded (r : JobRows) : Prop where
  /-- `claim_next_analysis_job` takes the job -/
  | claimable (h : claimable r = true)
  /-- the job has an owner, and then `recover_next_stale_analysis_job` takes it -/
  | leased (w : String) (token : Uuid) (expires : ℕ) (howner : r.job.lockedBy = some w)
      (htoken : r.job.claimToken = some token) (hlease : r.job.leaseExpiresAt = some expires)
      (hrecover : ∀ now, expires < now → recoverable now r = true)

/-- The job has an owner and a token, under a lease. -/
structure Leased (r : JobRows) : Prop where
  owner : r.job.lockedBy.isSome = true
  token : r.job.claimToken.isSome = true
  lease : r.job.leaseExpiresAt.isSome = true

/-- A worker has to act on a job in this status. -/
def NeedsWorker (st : AnalysisJobStatus) : Prop :=
  st.isTerminal = false ∧ st ≠ .needsClarification ∧ st ≠ .awaitingHumanReview

/-- What holds of every job in every state. -/
inductive Kept (r : JobRows) : Prop where
  /-- it waits for a worker -/
  | waits (h : claimable r = true)
  /-- it is owned -/
  | leased (h : Leased r)
  | ended (h : r.job.status.isTerminal = true)

/-- The engine has the claim and the lease of its job as they were. -/
theorem Leased.of_job {r r' : JobRows} {st : AnalysisJobStatus} (h : Leased r)
    (hjob : ∃ req, r'.job = { r.job with status := st, normalizedRequest := req }) :
    Leased r' := by
  obtain ⟨req, hjob⟩ := hjob
  constructor <;> rw [hjob]
  · exact h.owner
  · exact h.token
  · exact h.lease

variable {cfg : EngineConfig} {now : ℕ}

/-- A worker's job is kept by its engine. -/
theorem EngineChange.kept {token : Uuid} {w : String} {r r' : JobRows}
    (h : EngineChange cfg r r') (hr : ownedBy token w r = true) (hkept : Kept r) : Kept r' := by
  simp only [ownedBy, Bool.and_eq_true, beq_iff_eq] at hr
  obtain ⟨⟨htoken, howner⟩, hworking⟩ := hr
  have hleased : Leased r := by
    cases hkept with
    | waits h =>
      simp only [claimable, Bool.and_eq_true, Option.isNone_iff_eq_none] at h
      rw [h.1.1.2] at htoken
      cases htoken
    | leased h => exact h
    | ended h =>
      rw [AnalysisJobStatus.not_isTerminal_of_isWorking hworking] at h
      cases h
  cases h with
  | toolCommitted h => exact .leased (hleased.of_job h.job)
  | clarified clar _ hjob => exact .leased (hleased.of_job hjob)
  | ended st hst hjob =>
    obtain ⟨req, hjob⟩ := hjob
    refine .ended ?_
    rw [hjob]
    rcases hst with rfl | rfl <;> rfl
  | completed id narrative datasetId gates _ hjob =>
    obtain ⟨req, hjob⟩ := hjob
    refine .ended ?_
    rw [hjob]
    rfl

/-- **One step of a job** keeps it. -/
theorem JobStep.kept {c : AnalysisCall} {m : Option Mark} {j : Uuid} {r r' : JobRows}
    (h : JobStep cfg c m j r r') (hkept : Kept r) : Kept r' := by
  cases h with
  | claim w token now _ _ _ hr' =>
    subst hr'
    exact .leased ⟨rfl, rfl, rfl⟩
  | recover w token now _ _ _ hr' =>
    obtain ⟨attempts, rfl⟩ := hr'
    exact .leased ⟨rfl, rfl, rfl⟩
  | renew token w lease _ hr hr' =>
    subst hr'
    simp only [ownedBy, Bool.and_eq_true, beq_iff_eq] at hr
    exact .leased ⟨by simp [hr.1.2], by simp [hr.1.1], rfl⟩
  | engine token w _ hr hr' => exact hr'.kept hr hkept
  | answered clar user payload _ hr hjob =>
    cases hkept with
    | waits h =>
      simp only [claimable, Bool.and_eq_true, beq_iff_eq] at h
      rw [h.1.1.1] at hr
      cases hr
    | leased h => exact .leased (h.of_job ⟨r.job.normalizedRequest, hjob⟩)
    | ended h =>
      rw [hr] at h
      cases h
  | answerExpired _ _ _ _ _ hjob => exact .ended (by rw [hjob]; rfl)
  | clarificationCancelled _ _ _ _ hjob => exact .ended (by rw [hjob]; rfl)
  | clarificationExpired _ _ hjob =>
    rcases hjob with ⟨-, hjob⟩ | ⟨hterminal, hjob⟩
    · exact .ended (by rw [hjob]; rfl)
    · exact .ended (by rw [hjob]; exact hterminal)
  | analysisCancelled user _ hr' =>
    subst hr'
    exact .ended rfl
  | saved summary id _ _ hr' =>
    subst hr'
    exact .ended rfl

/-- Every job is kept in every state of every run. -/
theorem kept_of_reachable {s : AnalysisSys} (h : AnalysisReachable cfg now s) {j : Uuid}
    {r : JobRows} (hr : s.db.rows j = some r) : Kept r := by
  refine rows_invariant (P := fun _ r => Kept r) (fun j job hjob => .waits ?_)
    (fun _ _ _ _ hstep hkept => hstep.kept hkept) h j r hr
  simp [claimable, hjob.status, hjob.token, hjob.owner, hjob.lease]

/-- A leased job is not stranded exactly if it is before its side effects and was
not recovered before. -/
theorem Leased.notStranded_iff {r : JobRows} (h : Leased r) (hr : claimable r = false) :
    NotStranded r ↔ r.job.status.isRecoverable = true ∧ r.job.recoveryCount = 0 := by
  obtain ⟨w, howner⟩ := Option.isSome_iff_exists.mp h.owner
  obtain ⟨token, htoken⟩ := Option.isSome_iff_exists.mp h.token
  obtain ⟨expires, hlease⟩ := Option.isSome_iff_exists.mp h.lease
  -- past the lease, recovery asks for nothing else
  have hrecover : ∀ now, expires < now → (recoverable now r = true ↔
      r.job.status.isRecoverable = true ∧ r.job.recoveryCount = 0) := by
    intro now hnow
    simp [recoverable, ClaimAuthority.leasePassed, htoken, hlease, hnow]
  constructor
  · intro hfree
    cases hfree with
    | claimable hclaim =>
      rw [hr] at hclaim
      cases hclaim
    | leased w' token' expires' _ _ hlease' hrecover' =>
      rw [hlease] at hlease'
      obtain rfl := Option.some.inj hlease'
      exact (hrecover _ (Nat.lt_succ_self _)).mp (hrecover' _ (Nat.lt_succ_self _))
  · intro hbefore
    exact .leased w token expires howner htoken hlease fun now hnow => (hrecover now hnow).mpr hbefore

/-- **What becomes of a job that needs a worker**, in every state of every run. It
waits, or it is owned under a lease. A claim or a recovery takes it, now or once
that lease has passed, exactly if it waits, or is before its side effects and was
not recovered before. And the step to `CANCELLED` is open to its user. -/
theorem job_notStranded {s : AnalysisSys} (h : AnalysisReachable cfg now s) {j : Uuid}
    {r : JobRows} (hr : s.db.rows j = some r) (hst : NeedsWorker r.job.status) :
    (claimable r = true ∨ Leased r) ∧
      (NotStranded r ↔ claimable r = true ∨
        r.job.status.isRecoverable = true ∧ r.job.recoveryCount = 0) ∧
      AnalysisJobStatus.validateTransition r.job.status .cancelled = none := by
  obtain ⟨hterminal, hclar, hreview⟩ := hst
  have hcancel := AnalysisJobStatus.validateTransition_cancelled.mpr hterminal
  cases kept_of_reachable h hr with
  | waits hclaim =>
    exact ⟨.inl hclaim, iff_of_true (.claimable hclaim) (.inl hclaim), hcancel⟩
  | leased hleased =>
    have hclaim : claimable r = false := by
      obtain ⟨token, htoken⟩ := Option.isSome_iff_exists.mp hleased.token
      simp [claimable, htoken]
    refine ⟨.inr hleased, ?_, hcancel⟩
    rw [hleased.notStranded_iff hclaim, hclaim]
    simp
  | ended hended =>
    rw [hended] at hterminal
    cases hterminal

/-- A worker has committed its tool and dies, and its lease passes. -/
def crashAfterTool : List (Act Answer AnalysisCall ℕ) :=
  Model.serve 0 (.createAnalysis 5 "Akbank 2025-Q4 toplam aktifler" none []) 5 { uuid := 7 } ++
    Model.serve 1 (.runOnce "w") 40 { uuid := 9, normalization := assetsUnderstood } ++
    [.crash 1, .env 901]

theorem crashAfterTool_run : ∃ (s : AnalysisSys) (r : JobRows), AnalysisReachable ⟨.ascii⟩ 100 s ∧
    s.db.rows 7 = some r ∧ r.job.status = .executingTools ∧
      ClaimAuthority.leasePassed s.db.now r.job = true := by
  have hrun : (((analysisModel ⟨.ascii⟩).run crashAfterTool
      (Model.idle (emptyAnalysisDb 100))).bind fun s => (s.db.rows 7).map fun r =>
        (r.job.status, ClaimAuthority.leasePassed s.db.now r.job)) =
          some (.executingTools, true) := by
    decide +kernel
  obtain ⟨s, hs, hrest⟩ := Option.bind_eq_some_iff.mp hrun
  obtain ⟨r, hr, htest⟩ := Option.map_eq_some_iff.mp hrest
  obtain ⟨hst, hpassed⟩ := Prod.mk.inj htest
  exact ⟨s, r, Model.ReachableBy.later .start (Model.LaterBy.of_runBy (fun _ _ _ => trivial) hs), hr,
    hst, hpassed⟩

/-- The job of the dead worker is leased, nothing takes it, and it can be
cancelled. -/
theorem job_notStranded_executingTools : ∃ (s : AnalysisSys) (r : JobRows),
    s.db.rows 7 = some r ∧ r.job.status = .executingTools ∧
      ClaimAuthority.leasePassed s.db.now r.job = true ∧ Leased r ∧ ¬ NotStranded r ∧
      AnalysisJobStatus.validateTransition r.job.status .cancelled = none := by
  obtain ⟨s, r, h, hr, hst, hpassed⟩ := crashAfterTool_run
  have hneeds : NeedsWorker r.job.status := by
    rw [hst]
    exact ⟨rfl, by decide, by decide⟩
  have hclaim : ¬ claimable r = true := by simp [claimable, hst]
  obtain ⟨hkept, hfree, hcancel⟩ := job_notStranded h hr hneeds
  refine ⟨s, r, hr, hst, hpassed, hkept.resolve_left hclaim, fun hstranded => ?_, hcancel⟩
  obtain hclaim' | ⟨hrecoverable, -⟩ := hfree.mp hstranded
  · exact hclaim hclaim'
  · rw [hst] at hrecoverable
    cases hrecoverable

/-- No claim and no recovery ever takes the job of the dead worker. -/
theorem job_stranded :
    ¬ ∀ (cfg : EngineConfig) (now : ℕ) (s : AnalysisSys) (j : Uuid) (r : JobRows),
      AnalysisReachable cfg now s → s.db.rows j = some r → NeedsWorker r.job.status →
        NotStranded r := by
  intro hfree
  obtain ⟨s, r, h, hr, hst, -⟩ := crashAfterTool_run
  have hneeds : NeedsWorker r.job.status := by
    rw [hst]
    exact ⟨rfl, by decide, by decide⟩
  cases hfree _ _ s 7 r h hr hneeds with
  | claimable hclaim => simp [claimable, hst] at hclaim
  | leased w token expires _ _ _ hrecover =>
    have hrecoverable := hrecover _ (Nat.lt_succ_self _)
    simp only [recoverable, Bool.and_eq_true] at hrecoverable
    rw [hst] at hrecoverable
    cases hrecoverable.1.1.1

end FinanceIntelligence
