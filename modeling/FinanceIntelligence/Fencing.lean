import FinanceIntelligence.JobRuns

/-!
# Fencing

A run of `execute_job` is several transactions, and between two of them the job
row is free: the job may be answered, cancelled, recovered or renewed. Each of
them that commits locks the row again and checks the token first, so whatever it
commits, it commits under the token it was called with (`fenced_commit`). The
clarification branch goes on after its commit without a fence, but what it writes
there it cannot commit (`OrchestratorEngine.askClarification`).

A job is handed out at most twice in every run: once because it has no token,
and once because it was never recovered. The rows of the job account for both
(`HandedOut.le_accounted`).
-/

namespace FinanceIntelligence

open ClaimAuthority

section JobSteps

variable {cfg : EngineConfig} {c : AnalysisCall} {m : Option Mark} {j : Uuid} {r r' : JobRows}

/-- The claim of a job is as it was. -/
structure SameClaim (r r' : JobRows) : Prop where
  token : r'.job.claimToken = r.job.claimToken
  owner : r'.job.lockedBy = r.job.lockedBy
  /-- the recoveries -/
  count : r'.job.recoveryCount = r.job.recoveryCount

/-- The engine leaves the claim as it is. -/
theorem EngineChange.sameClaim (h : EngineChange cfg r r') : SameClaim r r' := by
  cases h with
  | toolCommitted h =>
    obtain ⟨req, hjob⟩ := h.job
    constructor <;> rw [hjob]
  | clarified clar _ hjob =>
    obtain ⟨req, hjob⟩ := hjob
    constructor <;> rw [hjob]
  | ended st _ hjob =>
    obtain ⟨req, hjob⟩ := hjob
    constructor <;> rw [hjob] <;> rfl
  | completed id narrative datasetId gates _ hjob =>
    obtain ⟨req, hjob⟩ := hjob
    constructor <;> rw [hjob] <;> rfl

/-- **The claim of a job** changes exactly when a worker, before it executes
anything, is handed the job: because it has no token, or because it was never
recovered. -/
theorem JobStep.claim_cases (h : JobStep cfg c m j r r') :
    ¬((∃ w, c = .runOnce w) ∧ m = none) ∧ SameClaim r r' ∨
      ((∃ w, c = .runOnce w) ∧ m = none) ∧ r'.job.claimToken.isSome = true ∧
        (r.job.claimToken = none ∧ r'.job.recoveryCount = r.job.recoveryCount ∨
          r.job.claimToken.isSome = true ∧ r.job.recoveryCount = 0 ∧
            r'.job.recoveryCount = 1) := by
  cases h with
  | claim w token now hc hm hr hr' =>
    subst hr'
    simp only [claimable, Bool.and_eq_true, Option.isNone_iff_eq_none] at hr
    exact .inr ⟨⟨⟨w, hc⟩, hm⟩, rfl, .inl ⟨hr.1.1.2, rfl⟩⟩
  | recover w token now hc hm hr hr' =>
    obtain ⟨t, hr⟩ := hr
    obtain ⟨attempts, rfl⟩ := hr'
    simp only [recoverable, Bool.and_eq_true, beq_iff_eq] at hr
    exact .inr ⟨⟨⟨w, hc⟩, hm⟩, rfl, .inr ⟨hr.1.1.2, hr.2, by simp [hr.2]⟩⟩
  | engine token w hm _ hr' =>
    exact .inl ⟨by simp [hm], hr'.sameClaim⟩
  | renew token w lease hc _ hr' =>
    subst hr'
    exact .inl ⟨by simp [hc], ⟨rfl, rfl, rfl⟩⟩
  | analysisCancelled user hc hr' =>
    subst hr'
    exact .inl ⟨by simp [hc], ⟨rfl, rfl, rfl⟩⟩
  | saved summary id hc _ hr' =>
    subst hr'
    exact .inl ⟨by simp [hc], ⟨rfl, rfl, rfl⟩⟩
  | answerExpired clar user payload hc _ hjob =>
    exact .inl ⟨by simp [hc], by constructor <;> rw [hjob]⟩
  | answered clar user payload hc _ hjob =>
    exact .inl ⟨by simp [hc], by constructor <;> rw [hjob]⟩
  | clarificationCancelled clar user hc _ hjob =>
    exact .inl ⟨by simp [hc], by constructor <;> rw [hjob]⟩
  | clarificationExpired n hc hjob =>
    refine .inl ⟨by simp [hc], ?_⟩
    rcases hjob with ⟨-, hjob⟩ | ⟨-, hjob⟩ <;> constructor <;> rw [hjob]

end JobSteps

/-! ## Who executes -/

/-- The calls that run the engine. -/
def AnalysisCall.runsEngine : AnalysisCall → Bool
  | .runOnce _ | .executeJob _ _ _ _ => true
  | _ => false

/-- The process has begun `execute_job` of the job `j` under the token. -/
def Executes (pr : Proc Row Stmt Answer Mark AnalysisDb Exc AnalysisCall) (j token : Uuid) : Prop :=
  pr.call.runsEngine = true ∧ ∃ w, pr.mark = some (.executing j token w)

variable {cfg : EngineConfig} {now : ℕ}

/-- A change by a run of `execute_job` is one of its own job, under the token. -/
theorem JobStep.of_executes {pr : Proc Row Stmt Answer Mark AnalysisDb Exc AnalysisCall}
    {i j token : Uuid} {r r' : JobRows} (h : JobStep cfg pr.call pr.mark i r r')
    (he : Executes pr j token) : i = j ∧ r.job.claimToken = some token := by
  obtain ⟨hcall, w, hmark⟩ := he
  cases h with
  | claim _ _ _ _ hm => simp [hmark] at hm
  | recover _ _ _ _ hm => simp [hmark] at hm
  | engine token' w' hm hr =>
    rw [hmark] at hm
    cases hm
    simp only [ownedBy, Bool.and_eq_true, beq_iff_eq] at hr
    exact ⟨rfl, hr.1.1⟩
  | renew _ _ _ hc => simp [hc, AnalysisCall.runsEngine] at hcall
  | answerExpired _ _ _ hc => simp [hc, AnalysisCall.runsEngine] at hcall
  | answered _ _ _ hc => simp [hc, AnalysisCall.runsEngine] at hcall
  | clarificationCancelled _ _ hc => simp [hc, AnalysisCall.runsEngine] at hcall
  | clarificationExpired _ hc => simp [hc, AnalysisCall.runsEngine] at hcall
  | analysisCancelled _ hc => simp [hc, AnalysisCall.runsEngine] at hcall
  | saved _ _ hc => simp [hc, AnalysisCall.runsEngine] at hcall

/-- **A fenced commit**: a run of `execute_job` changes its own job only, whose
token is the one it was called with. -/
theorem fenced_commit {s s' : AnalysisSys} {a : Act Answer AnalysisCall ℕ}
    (h : AnalysisReachable cfg now s) (hs : (analysisModel cfg).step a s = some s')
    {pr : Proc Row Stmt Answer Mark AnalysisDb Exc AnalysisCall} (hcommit : Model.Commits a s pr)
    {j token : Uuid} (he : Executes pr j token) {i : Uuid} (hi : s'.db.rows i ≠ s.db.rows i) :
    i = j ∧ ∃ r, s.db.rows j = some r ∧ r.job.claimToken = some token := by
  rcases rows_step h hs i with hsame | ⟨pr', hcommit', -, hchange⟩
  · exact absurd hsame hi
  obtain rfl := hcommit.unique hcommit'
  rcases hchange.cases_of_ne hi with ⟨⟨user, prompt, key, documents, hc⟩, -⟩ | ⟨r, r', hr, -, hstep⟩
  · simp [Executes, hc, AnalysisCall.runsEngine] at he
  · obtain ⟨rfl, htoken⟩ := hstep.of_executes he
    exact ⟨rfl, r, hr, htoken⟩

/-! ## What holds of every job -/

/-- At most one snapshot, and at most one recovery, which takes a token. -/
structure ClaimBounded (r : JobRows) : Prop where
  /-- one final snapshot, whoever wrote it -/
  snapshots : r.snapshots.length ≤ 1
  /-- one recovery -/
  recoveries : r.job.recoveryCount ≤ 1

theorem JobStep.claimBounded {c : AnalysisCall} {m : Option Mark} {j : Uuid} {r r' : JobRows}
    (h : JobStep cfg c m j r r') (hr : ClaimBounded r) : ClaimBounded r' := by
  refine ⟨?_, ?_⟩
  · rcases h.snapshots with
      hsnap | ⟨-, ⟨id, narrative, datasetId, -, -, hsnap⟩ | ⟨id, summary, hsnap⟩⟩
    · rw [hsnap]
      exact hr.snapshots
    · rw [hsnap]
      exact le_rfl
    · rw [hsnap]
      exact le_rfl
  · rcases h.claim_cases with ⟨-, hsame⟩ | ⟨-, -, ⟨-, hcount⟩ | ⟨-, -, hcount⟩⟩
    · rw [hsame.count]
      exact hr.recoveries
    · rw [hcount]
      exact hr.recoveries
    · exact hcount.le

/-! ## Hand-outs -/

/-- The step commits a transaction of a worker, before it executes anything, that
changes the job: the job is handed out to the worker. -/
def HandsOut (j : Uuid) (a : Act Answer AnalysisCall ℕ) (s s' : AnalysisSys) : Prop :=
  (∃ pr w, Model.Commits a s pr ∧ pr.call = .runOnce w ∧ pr.mark = none) ∧
    s'.db.rows j ≠ s.db.rows j

/-- The states of the runs in which the job `j` has been handed out `n` times. -/
inductive HandedOut (cfg : EngineConfig) (now : ℕ) (j : Uuid) : ℕ → AnalysisSys → Prop where
  /-- nothing has happened yet -/
  | start : HandedOut cfg now j 0 (Model.idle (emptyAnalysisDb now))
  /-- a step that hands the job out -/
  | handOut {n : ℕ} {s s' : AnalysisSys} {a : Act Answer AnalysisCall ℕ} :
      HandedOut cfg now j n s → (analysisModel cfg).step a s = some s' → HandsOut j a s s' →
        HandedOut cfg now j (n + 1) s'
  /-- another step -/
  | other {n : ℕ} {s s' : AnalysisSys} {a : Act Answer AnalysisCall ℕ} :
      HandedOut cfg now j n s → (analysisModel cfg).step a s = some s' → ¬ HandsOut j a s s' →
        HandedOut cfg now j n s'

theorem HandedOut.reachable {j : Uuid} {n : ℕ} {s : AnalysisSys} (h : HandedOut cfg now j n s) :
    AnalysisReachable cfg now s := by
  induction h with
  | start => exact .start
  | handOut _ hs _ ih => exact .step ih trivial hs
  | other _ hs _ ih => exact .step ih trivial hs

/-- The hand-outs that the rows of a job account for: its token and its
recoveries. -/
def accounted : Option JobRows → ℕ
  | none => 0
  | some r => r.job.claimToken.toList.length + r.job.recoveryCount

/-- A change of a job loses no hand-out, and a hand-out adds one. -/
theorem RowsChange.accounted {c : AnalysisCall} {m : Option Mark} {j : Uuid}
    {o o' : Option JobRows} (h : RowsChange cfg c m j o o') (hne : o' ≠ o) :
    accounted o ≤ accounted o' ∧
      ((∃ w, c = .runOnce w) ∧ m = none → accounted o + 1 ≤ accounted o') := by
  rcases h.cases_of_ne hne with ⟨⟨user, prompt, key, documents, hc⟩, rfl, -⟩ | ⟨r, r', rfl, rfl, hstep⟩
  · exact ⟨Nat.zero_le _, by simp [hc]⟩
  · simp only [FinanceIntelligence.accounted]
    rcases hstep.claim_cases with ⟨hno, hsame⟩ | ⟨-, htoken, hcount⟩
    · rw [hsame.token, hsame.count]
      exact ⟨le_rfl, fun hout => absurd hout hno⟩
    · obtain ⟨token, htoken⟩ := Option.isSome_iff_exists.mp htoken
      have htoken' : r'.job.claimToken.toList.length = 1 := by rw [htoken]; rfl
      rcases hcount with ⟨hnone, hcount⟩ | ⟨hsome, h₀, h₁⟩
      · have hnone' : r.job.claimToken.toList.length = 0 := by rw [hnone]; rfl
        omega
      · obtain ⟨token', hsome⟩ := Option.isSome_iff_exists.mp hsome
        have hsome' : r.job.claimToken.toList.length = 1 := by rw [hsome]; rfl
        omega

/-- The rows of a job account for every hand-out. -/
theorem HandedOut.le_accounted {j : Uuid} {n : ℕ} {s : AnalysisSys}
    (h : HandedOut cfg now j n s) : n ≤ accounted (s.db.rows j) := by
  induction h with
  | start => exact Nat.zero_le _
  | handOut h hs hout ih =>
    obtain ⟨⟨pr, w, hcommit, hcall, hmark⟩, hne⟩ := hout
    rcases rows_step h.reachable hs j with hsame | ⟨pr', hcommit', -, hchange⟩
    · exact absurd hsame hne
    · obtain rfl := hcommit.unique hcommit'
      have := (hchange.accounted hne).2 ⟨⟨w, hcall⟩, hmark⟩
      omega
  | other h hs hno ih =>
    rename_i s s' a
    by_cases hne : s'.db.rows j = s.db.rows j
    · rwa [hne]
    · rcases rows_step h.reachable hs j with hsame | ⟨pr, -, -, hchange⟩
      · exact absurd hsame hne
      · exact ih.trans (hchange.accounted hne).1

/-- **Fencing**, in every run of the plane, with any number of workers, crashes
and users. A run of `execute_job` commits changes of its own job only, while the
token of the job is the one it was called with; a job has at most one final
snapshot and at most one recovery; and it is handed out at most twice. -/
theorem executeJob_fenced (cfg : EngineConfig) (now : ℕ) :
    (∀ s s' a pr j token i, AnalysisReachable cfg now s →
        (analysisModel cfg).step a s = some s' → Model.Commits a s pr → Executes pr j token →
          s'.db.rows i ≠ s.db.rows i →
            i = j ∧ ∃ r, s.db.rows j = some r ∧ r.job.claimToken = some token) ∧
      (∀ s j r, AnalysisReachable cfg now s → s.db.rows j = some r →
        r.snapshots.length ≤ 1 ∧ r.job.recoveryCount ≤ 1) ∧
      ∀ s j n, HandedOut cfg now j n s → n ≤ 2 := by
  have hbounded : ∀ s j r, AnalysisReachable cfg now s → s.db.rows j = some r → ClaimBounded r := by
    intro s j r h
    exact rows_invariant (P := fun _ r => ClaimBounded r)
      (fun j job hjob => ⟨Nat.zero_le 1, hjob.count ▸ Nat.zero_le 1⟩)
      (fun _ _ _ _ hstep hr => hstep.claimBounded hr) h j r
  refine ⟨fun s s' a pr j token i h hs hcommit he hi => fenced_commit h hs hcommit he hi,
    fun s j r h hr => ?_, fun s j n h => ?_⟩
  · obtain ⟨hsnap, hcount⟩ := hbounded s j r h hr
    exact ⟨hsnap, hcount⟩
  · refine h.le_accounted.trans ?_
    rcases hr : s.db.rows j with _ | r
    · exact Nat.zero_le 2
    · have hcount := (hbounded s j r h.reachable hr).recoveries
      have htoken : r.job.claimToken.toList.length ≤ 1 := by
        cases r.job.claimToken <;> simp
      simp only [accounted]
      omega

/-- A run commits its snapshot, under the token it was called with. -/
theorem executeJob_fenced_completed : ∃ (s s' : AnalysisSys) (r r' : JobRows),
    AnalysisReachable ⟨.ascii⟩ 100 s ∧
      (analysisModel ⟨.ascii⟩).step (.exec 1 { uuid := 9 }) s = some s' ∧
      s.db.rows 7 = some r ∧ r.job.claimToken = some 9 ∧
      s'.db.rows 7 = some r' ∧ r.snapshots = [] ∧ r'.snapshots.length = 1 := by
  have hrun : (((analysisModel ⟨.ascii⟩).run
      (Model.serve 0 (.createAnalysis 5 "Akbank 2025-Q4 toplam aktifler" none []) 5 { uuid := 7 } ++
        Model.serve 1 (.runOnce "w") 60 { uuid := 9, normalization := assetsUnderstood })
      (Model.idle (emptyAnalysisDb 100))).bind fun s =>
        ((analysisModel ⟨.ascii⟩).step (.exec 1 { uuid := 9 }) s).map fun s' =>
          (s.proc 1).any (fun pr => pr.prog.isCommit && pr.call.runsEngine &&
            pr.mark == some (.executing 7 9 "w")) &&
          (s.db.rows 7).any (fun r => r.snapshots.length == 0) &&
          (s'.db.rows 7).any fun r => r.snapshots.length == 1) = some true := by
    decide +kernel
  obtain ⟨s, hs, hrest⟩ := Option.bind_eq_some_iff.mp hrun
  obtain ⟨s', hs', htest⟩ := Option.map_eq_some_iff.mp hrest
  simp only [Bool.and_eq_true, Option.any_eq_true, beq_iff_eq] at htest
  obtain ⟨⟨⟨pr, hp, ⟨hcommit, hcall⟩, hmark⟩, r, hr, hnone⟩, r', hr', hone⟩ := htest
  have h : AnalysisReachable ⟨.ascii⟩ 100 s :=
    Model.ReachableBy.later .start (Model.LaterBy.of_runBy (fun _ _ _ => trivial) hs)
  have hne : s'.db.rows 7 ≠ s.db.rows 7 := by
    intro heq
    rw [hr, hr'] at heq
    rw [Option.some.inj heq, hnone] at hone
    cases hone
  obtain ⟨-, r₁, hr₁, htoken⟩ := (executeJob_fenced ⟨.ascii⟩ 100).1 s s' _ pr 7 9 7 h hs'
    ⟨1, _, rfl, hp, hcommit⟩ ⟨hcall, "w", hmark⟩ hne
  obtain rfl := Option.some.inj (hr.symm.trans hr₁)
  exact ⟨s, s', r, r', h, hs', hr, htoken, hr', List.length_eq_zero_iff.mp hnone, hone⟩

end FinanceIntelligence
