import FinanceIntelligence.IngestionRuns

/-!
# Bounded ingestion attempts

`current_attempt` is raised by the transaction that ends an attempt, and the claim
is committed before that one begins. A worker that dies in between leaves a claim
that no counter knows of, and fifteen minutes later the job is claimed again. In
runs without such claims `current_attempt`, and one more while the job is parsed,
counts the claims.

* `ingestion_claims_bounded` — so a job is claimed **at most `max_attempts` times** there.
-/

namespace FinanceIntelligence

open IngestionQueue IngestionWorker

/-- The step commits a claim of the job. -/
def Claims (j : Uuid) (a : IngestionAct) (s s' : IngestionSys) : Prop :=
  ∃ pr r, Model.Commits a s pr ∧ pr.mark = some (.claiming j) ∧ s.db.jobs j = some r ∧
    s'.db.jobs j ≠ some r

/-- The step commits a claim of a job that is still being parsed: a claim that came
before ended in no attempt. -/
def Reclaims (a : IngestionAct) (s : IngestionSys) : Prop :=
  ∃ p i pr j r, a = .exec p i ∧ s.proc p = some pr ∧ pr.prog.isCommit = true ∧
    pr.mark = some (.claiming j) ∧ s.owner (.job j) = some p ∧ s.db.jobs j = some r ∧
    r.job.status = .parsing

/-- `uuid4` makes no token that a running call has. -/
def FreshToken (a : IngestionAct) (s : IngestionSys) : Prop :=
  ∀ p c t, a = .spawn p c → c.token = some t → ∀ q pr, s.proc q = some pr →
    pr.call.token ≠ some t

/-- No claim is lost: the condition under which attempts are counted. -/
def Recorded (a : IngestionAct) (s : IngestionSys) : Prop := FreshToken a s ∧ ¬ Reclaims a s

/-- The states of the runs in which no claim is lost. -/
abbrev RecordedReachable (now : ℕ) : IngestionSys → Prop :=
  ingestionModel.ReachableBy Recorded (emptyIngestionDb now)

/-- The attempts that were begun: those that have ended, and the one in which the
job is parsed. -/
def attemptsBegun (job : IngestionJob) : ℕ :=
  job.currentAttempt + if job.status = .parsing then 1 else 0

@[simp] theorem attemptsBegun_handOut (w : String) (token : Uuid) (t : ℕ) (job : IngestionJob) :
    attemptsBegun (handOut w token t job) = job.currentAttempt + 1 := rfl

theorem attemptsBegun_endAttempt {st : IngestionStatus} (h : st ≠ .parsing) (n : ℕ)
    (job : IngestionJob) : attemptsBegun (endAttempt st n job) = n := by
  simp [attemptsBegun, endAttempt, h]

theorem attemptsBegun_le (job : IngestionJob) : attemptsBegun job ≤ job.currentAttempt + 1 := by
  unfold attemptsBegun
  split <;> omega

/-! ## Steps of one job -/

section Steps

variable {c : IngestionCall} {m : Option IngestionMark} {d d' : IngestionDb} {j : Uuid}
  {r r' : IngestionRows} {x x' : VersionRows} {t : ℕ}

/-- A job is as it was, or a worker changes it. -/
theorem IngestionStep.job_cases (hs : IngestionStep c m d d') (hr : d.jobs j = some r) :
    d'.jobs j = some r ∨ ∃ r' x x', d'.jobs j = some r' ∧
      IngestionChange c m d.now j r r' x x' := by
  cases hs with
  | same hd =>
    rw [hd]
    exact .inl hr
  | created i v job version _ hi _ _ _ _ _ _ _ _ hjobs =>
    refine .inl ?_
    rw [hjobs, Function.update_of_ne (fun hij => by rw [← hij, hr] at hi; cases hi), hr]
  | changed i q q' x x' hq _ hchange hjobs =>
    by_cases hij : j = i
    · subst hij
      obtain rfl := Option.some.inj (hq.symm.trans hr)
      exact .inr ⟨q', x, x', by rw [hjobs, Function.update_self], hchange⟩
    · exact .inl (by rw [hjobs, Function.update_of_ne hij, hr])

/-- A job that is new waits for its first attempt, and nobody has claimed it. -/
theorem IngestionStep.job_new (hs : IngestionStep c m d d') (hj : d.jobs j = none)
    (hj' : d'.jobs j = some r') : r'.job.status = .queued ∧ r'.job.currentAttempt = 0 ∧
      r'.job.maxAttempts = 3 ∧ r'.job.claimToken = none := by
  cases hs with
  | same hd =>
    rw [hd, hj] at hj'
    cases hj'
  | created i v job version _ _ _ _ _ hstatus hattempt hmax htoken _ hjobs =>
    rw [hjobs] at hj'
    by_cases hij : j = i
    · rw [hij, Function.update_self] at hj'
      obtain rfl := Option.some.inj hj'
      exact ⟨hstatus, hattempt, hmax, htoken⟩
    · rw [Function.update_of_ne hij, hj] at hj'
      cases hj'
  | changed i q q' x x' hq _ _ hjobs =>
    rw [hjobs, Function.update_of_ne (fun hij => by rw [← hij, hj] at hq; cases hq), hj] at hj'
    cases hj'

/-- A job that is queued again has attempts left. -/
theorem IngestionChange.attempts_left (h : IngestionChange c m t j r r' x x')
    (hqueued : r'.job.status = .queued) : r'.job.currentAttempt < r'.job.maxAttempts := by
  cases h with
  | claimed w token t _ _ _ _ hr' =>
    rw [hr'] at hqueued
    cases hqueued
  | parsed cl n st _ _ _ _ _ _ hst hjob =>
    rw [hjob] at hqueued
    rw [show st = .queued from hqueued] at hst
    cases hst
  | failed cl n st _ _ _ _ _ hst hjob =>
    rw [hjob] at hqueued ⊢
    rw [show st = .queued from hqueued] at hst
    by_contra hn
    rw [if_neg (show ¬ n < r.job.maxAttempts from hn)] at hst
    cases hst

end Steps

variable {now : ℕ} {s s' : IngestionSys} {a : IngestionAct}

/-- **A queued job has attempts left.** -/
theorem queued_attempts_left (h : IngestionReachable now s) {j : Uuid} {r : IngestionRows}
    (hr : s.db.jobs j = some r) (hqueued : r.job.status = .queued) :
    r.job.currentAttempt < r.job.maxAttempts := by
  refine h.invariant (P := fun s => ∀ r, s.db.jobs j = some r → r.job.status = .queued →
    r.job.currentAttempt < r.job.maxAttempts) (fun _ hr => by cases hr) ?_ r hr hqueued
  intro s s' a hreach ih _ hs r' hr' hqueued
  rcases ingestion_step hreach hs with ⟨hjobs, -⟩ | ⟨pr, -, hstep⟩
  · rw [hjobs] at hr'
    exact ih r' hr' hqueued
  · cases hr : s.db.jobs j with
    | none =>
      obtain ⟨-, hattempt, hmax, -⟩ := hstep.job_new hr hr'
      omega
    | some r =>
      rcases hstep.job_cases hr with hsame | ⟨q, x, x', hq, hchange⟩
      · obtain rfl := Option.some.inj (hsame.symm.trans hr')
        exact ih r hr hqueued
      · obtain rfl := Option.some.inj (hq.symm.trans hr')
        exact hchange.attempts_left hqueued

/-! ## Tokens -/

/-- Running calls have different tokens. -/
theorem token_injective (h : RecordedReachable now s) {p q : ℕ} {pr pr' : IngestionProc} {t : Uuid}
    (hp : s.proc p = some pr) (hq : s.proc q = some pr') (ht : pr.call.token = some t)
    (ht' : pr'.call.token = some t) : p = q := by
  refine h.invariant (P := fun s => ∀ p q pr pr', s.proc p = some pr → s.proc q = some pr' →
    pr.call.token = some t → pr'.call.token = some t → p = q) (fun _ _ _ _ hp => nomatch hp) ?_
    p q pr pr' hp hq ht ht'
  intro s s' a hreach ih hok hs p q pr pr' hp hq ht ht'
  have hsafe := ingestion_safe hreach.reachable
  -- a process of the next state was there with its call, or has just begun
  have hold : ∀ p pr, s'.proc p = some pr → pr.call.token = some t →
      (∃ pr₀, s.proc p = some pr₀ ∧ pr₀.call.token = some t) ∨
        ∃ c, a = .spawn p c ∧ c.token = some t := by
    intro p pr hp ht
    rcases hsafe.step_proc hs hp with hp | ⟨c, ha, rfl⟩ | ⟨i, pr₀, -, hp, hadv⟩
    · exact .inl ⟨pr, hp, ht⟩
    · exact .inr ⟨c, ha, ht⟩
    · exact .inl ⟨pr₀, hp, by rw [← hadv.call]; exact ht⟩
  rcases hold p pr hp ht with ⟨pr₀, hp₀, ht₀⟩ | ⟨c, ha, hc⟩ <;>
    rcases hold q pr' hq ht' with ⟨pr₁, hq₁, ht₁⟩ | ⟨c', ha', hc'⟩
  · exact ih p q pr₀ pr₁ hp₀ hq₁ ht₀ ht₁
  · exact absurd ht₀ (hok.1 q c' t ha' hc' p pr₀ hp₀)
  · exact absurd ht₁ (hok.1 p c t ha hc q pr₁ hq₁)
  · cases ha.symm.trans ha'
    rfl

/-- A change of a job that a claim of `pr` is on leaves it to `pr`: it ends the
attempt of `pr`, or gives the job another token. -/
theorem IngestionChange.of_token (h : RecordedReachable now s) {p q : ℕ}
    {pr pr' : IngestionProc} {cl : ClaimedJob} {n t : ℕ} {j : Uuid} {r r' : IngestionRows}
    {x x' : VersionRows} (hp : s.proc p = some pr) (hm : pr.mark = some (.parsing cl n))
    (hq : s.proc q = some pr') (hchange : IngestionChange pr'.call pr'.mark t j r r' x x')
    (htoken : r'.job.claimToken = some cl.claimToken) : attemptsBegun r'.job = n := by
  have ht := Processes.token h.reachable hp (.inr ⟨n, hm⟩)
  -- the process that makes the change has the token of the row
  have hsame : pr'.call.token = some cl.claimToken → pr' = pr := by
    intro ht'
    obtain rfl := token_injective h hp hq ht ht'
    exact Option.some.inj (hq.symm.trans hp)
  have howner : ∀ cl' : ClaimedJob, pr'.call.token = some cl'.claimToken →
      owned cl' r.job = true → r'.job.claimToken = r.job.claimToken → pr' = pr := by
    intro cl' hc ho hkept
    simp only [owned, Bool.and_eq_true, beq_iff_eq] at ho
    exact hsame (hc.trans (ho.2.symm.trans (hkept.symm.trans htoken)))
  cases hchange with
  | claimed w token t hc hm' _ _ hr' =>
    rw [hr'] at htoken
    rw [hsame (hc.trans htoken), hm] at hm'
    cases hm'
  | parsed cl' n' st hm' hc _ ho _ _ hst hjob =>
    rw [howner cl' hc ho (by rw [hjob]; rfl), hm] at hm'
    cases hm'
    rw [hjob]
    exact attemptsBegun_endAttempt (fun h => by rw [h] at hst; cases hst) _ _
  | failed cl' n' st hm' hc _ ho _ hst hjob =>
    rw [howner cl' hc ho (by rw [hjob]; rfl), hm] at hm'
    cases hm'
    rw [hjob]
    refine attemptsBegun_endAttempt (fun h => ?_) _ _
    rw [h] at hst
    split at hst <;> cases hst

/-- **The attempt of a worker is the last one begun**, as long as the job is
claimed by the worker. -/
theorem attemptsBegun_le_parsing (h : RecordedReachable now s) {p : ℕ} {pr : IngestionProc}
    {cl : ClaimedJob} {n : ℕ} {r : IngestionRows} (hp : s.proc p = some pr)
    (hm : pr.mark = some (.parsing cl n)) (hr : s.db.jobs cl.jobId = some r)
    (htoken : r.job.claimToken = some cl.claimToken) : attemptsBegun r.job ≤ n := by
  refine h.invariant (P := fun s => ∀ p pr r, s.proc p = some pr →
    pr.mark = some (.parsing cl n) → s.db.jobs cl.jobId = some r →
      r.job.claimToken = some cl.claimToken → attemptsBegun r.job ≤ n)
    (fun _ _ _ hp => nomatch hp) ?_ p pr r hp hm hr htoken
  intro s s' a hreach ih _ hs p pr' r' hp' hm' hr' htoken
  -- for a worker that was parsing before the step
  have hkeep : ∀ pr, s.proc p = some pr → pr.mark = some (.parsing cl n) →
      attemptsBegun r'.job ≤ n := by
    intro pr hp hm
    rcases ingestion_step hreach.reachable hs with ⟨hjobs, -⟩ | ⟨pr₁, ⟨q, i, -, hq, -⟩, hstep⟩
    · rw [hjobs] at hr'
      exact ih p pr r' hp hm hr' htoken
    · cases hr : s.db.jobs cl.jobId with
      | none =>
        obtain ⟨-, -, -, hnone⟩ := hstep.job_new hr hr'
        rw [hnone] at htoken
        cases htoken
      | some r =>
        rcases hstep.job_cases hr with hsame | ⟨r₁, x, x', hr₁, hchange⟩
        · obtain rfl := Option.some.inj (hsame.symm.trans hr')
          exact ih p pr r hp hm hr htoken
        · obtain rfl := Option.some.inj (hr₁.symm.trans hr')
          exact (hchange.of_token hreach hp hm hq htoken).le
  rcases (ingestion_safe hreach.reachable).step_proc hs hp' with hp | ⟨c, -, rfl⟩ |
      ⟨i, pr, -, hp, hadv⟩
  · exact hkeep pr' hp hm'
  · cases hm'
  · rcases hadv.effect with ⟨hdb, hmark | ⟨m, hmark, hnoted⟩⟩ | ⟨-, -, hmark, -⟩
    · exact hkeep pr hp (hmark ▸ hm')
    · -- the worker has just found the job and begins its attempt
      obtain rfl := Option.some.inj (hmark.symm.trans hm')
      obtain ⟨-, r, hr, -, hn⟩ := hnoted
      rw [hdb, hr] at hr'
      obtain rfl := Option.some.inj hr'
      rw [hn]
      exact attemptsBegun_le _
    · exact hkeep pr hp (hmark ▸ hm')

/-! ## The bound -/

/-- A claim is a change of the job by the process that has it locked. -/
theorem Claims.change (h : IngestionReachable now s) (hs : ingestionModel.step a s = some s')
    {j : Uuid} (hc : Claims j a s s') : ∃ p i pr r r' w token t, a = .exec p i ∧
      s.proc p = some pr ∧ pr.prog.isCommit = true ∧ pr.mark = some (.claiming j) ∧
      s.owner (.job j) = some p ∧ s.db.jobs j = some r ∧ s'.db.jobs j = some r' ∧
      claimable t r.job = true ∧ r'.job = handOut w token t r.job := by
  obtain ⟨pr, r, hcommit, hm, hr, hne⟩ := hc
  rcases ingestion_step h hs with ⟨hjobs, -⟩ | ⟨pr', hcommit', hstep⟩
  · exact absurd (hjobs ▸ hr) hne
  · obtain rfl := hcommit.unique hcommit'
    rcases hstep.job_cases hr with hsame | ⟨r', x, x', hr', hchange⟩
    · exact absurd hsame hne
    · obtain ⟨p, i, rfl, hp, hprog⟩ := hcommit
      have howner : s.owner (.job j) = some p := by
        by_contra hfree
        exact hne (((ingestion_safe h).exec_agree hs (r := .job j) hfree).1.trans hr)
      cases hchange with
      | claimed w token t _ _ _ hclaimable hjob =>
        exact ⟨p, i, pr, r, r', w, token, t, rfl, hp, hprog, hm, howner, hr, hr', hclaimable,
          by rw [hjob]⟩
      | parsed _ _ _ hm' => rw [hm] at hm'; cases hm'
      | failed _ _ _ hm' => rw [hm] at hm'; cases hm'

/-- The attempts begun on a job, as far as they are allowed. -/
def attemptsCounted (j : Uuid) (s : IngestionSys) : ℕ :=
  ((s.db.jobs j).map fun r => min (attemptsBegun r.job) r.job.maxAttempts).getD 0

theorem attemptsCounted_eq {j : Uuid} {r : IngestionRows} (h : s.db.jobs j = some r) :
    attemptsCounted j s = min (attemptsBegun r.job) r.job.maxAttempts := by
  rw [attemptsCounted, h]
  rfl

/-- **No step loses an attempt.** -/
theorem attemptsCounted_le (h : RecordedReachable now s) (hs : ingestionModel.step a s = some s')
    (j : Uuid) : attemptsCounted j s ≤ attemptsCounted j s' := by
  rcases ingestion_step h.reachable hs with ⟨hjobs, -⟩ | ⟨pr, ⟨p, i, -, hp, -⟩, hstep⟩
  · rw [attemptsCounted, attemptsCounted, hjobs]
  · cases hr : s.db.jobs j with
    | none =>
      rw [attemptsCounted, hr]
      exact Nat.zero_le _
    | some r =>
      rcases hstep.job_cases hr with hsame | ⟨r', x, x', hr', hchange⟩
      · rw [attemptsCounted_eq hr, attemptsCounted_eq hsame]
      · rw [attemptsCounted_eq hr, attemptsCounted_eq hr', hchange.sameJob.maxAttempts]
        refine min_le_min_right _ ?_
        cases hchange with
        | claimed w token t _ _ _ _ hjob =>
          rw [hjob, attemptsBegun_handOut]
          exact attemptsBegun_le _
        | parsed cl n st _ _ _ _ _ hn hst hjob =>
          rw [hjob, attemptsBegun_endAttempt (fun h => by rw [h] at hst; cases hst), hn]
          exact attemptsBegun_le _
        | failed cl n st hm _ hj ho _ hst hjob =>
          rw [hjob, attemptsBegun_endAttempt (fun h => by rw [h] at hst; split at hst <;> cases hst)]
          simp only [owned, Bool.and_eq_true, beq_iff_eq] at ho
          exact attemptsBegun_le_parsing h hp hm (hj ▸ hr) ho.2

/-- **A claim begins an attempt.** -/
theorem Claims.counted (h : RecordedReachable now s) (hok : Recorded a s)
    (hs : ingestionModel.step a s = some s') {j : Uuid} (hc : Claims j a s s') :
    attemptsCounted j s + 1 ≤ attemptsCounted j s' := by
  obtain ⟨p, i, pr, r, r', w, token, t, ha, hp, hprog, hm, howner, hr, hr', hclaimable, hjob⟩ :=
    hc.change h.reachable hs
  have hqueued : r.job.status = .queued := by
    simp only [claimable, stale, Bool.or_eq_true, Bool.and_eq_true, beq_iff_eq] at hclaimable
    refine hclaimable.resolve_right fun hstale => hok.2 ?_
    exact ⟨p, i, pr, j, r, ha, hp, hprog, hm, howner, hr, hstale.1.1⟩
  have hleft := queued_attempts_left h.reachable hr hqueued
  have hbegun : attemptsBegun r.job = r.job.currentAttempt := by simp [attemptsBegun, hqueued]
  have hmax : (handOut w token t r.job).maxAttempts = r.job.maxAttempts := rfl
  rw [attemptsCounted_eq hr, attemptsCounted_eq hr', hjob, attemptsBegun_handOut, hbegun, hmax]
  omega

/-- **The claims of a job are counted.** -/
theorem claims_le_attemptsCounted {j : Uuid} {n : ℕ}
    (h : ingestionModel.CountedBy Recorded (Claims j) (emptyIngestionDb now) n s) :
    n ≤ attemptsCounted j s :=
  h.le_potential fun hreach hok hs =>
    ⟨attemptsCounted_le hreach hs j, fun hc => hc.counted hreach hok hs⟩

/-- **Bounded ingestion attempts**, in runs in which no claim is lost: a job is
claimed at most `max_attempts` times, and one that was claimed as often as that
cannot be claimed again unless its last claim is being lost. -/
theorem ingestion_claims_bounded (now : ℕ) (j : Uuid) (n : ℕ) (s : IngestionSys)
    (r : IngestionRows)
    (h : ingestionModel.CountedBy Recorded (Claims j) (emptyIngestionDb now) n s)
    (hr : s.db.jobs j = some r) : n ≤ r.job.maxAttempts ∧
      (n = r.job.maxAttempts → stale 15 s.db.now r.job = false →
        claimable s.db.now r.job = false) := by
  have hn := claims_le_attemptsCounted h
  rw [attemptsCounted_eq hr] at hn
  refine ⟨hn.trans (min_le_right _ _), fun hmax hstale => eq_false_of_ne_true fun hc => ?_⟩
  simp only [claimable, hstale, Bool.false_and, Bool.or_false, beq_iff_eq] at hc
  have hleft := queued_attempts_left h.reachableBy.reachable hr hc
  have hbegun : attemptsBegun r.job = r.job.currentAttempt := by simp [attemptsBegun, hc]
  omega

/-! ## Concrete runs -/

/-- The job that the process claims. -/
def IngestionMark.claimedJob : IngestionMark → Option Uuid
  | .claiming j => some j
  | _ => none

/-- The step is a commit of a process that claims a job for which `q` holds. -/
def commitsClaim (q : Uuid → IngestionRows → Bool) (a : IngestionAct) (s : IngestionSys) : Bool :=
  match a with
  | .exec p _ => (s.proc p).any fun pr => pr.prog.isCommit &&
    (pr.mark.bind (·.claimedJob)).any fun j => (s.db.jobs j).any (q j)
  | _ => false

/-- The step claims the job, which then has another token. -/
def claimsJob (j : Uuid) (a : IngestionAct) (s s' : IngestionSys) : Bool :=
  commitsClaim (fun i r => i == j && (s'.db.jobs j).any fun r' =>
    r'.job.claimToken != r.job.claimToken) a s

/-- Only the process `0` runs, and it claims no job that is being parsed. -/
def oneAtATime (a : IngestionAct) (s : IngestionSys) : Bool :=
  match a with
  | .spawn p _ => p == 0 && (s.proc 0).isNone
  | .exec _ _ => !commitsClaim (fun _ r => r.job.status == .parsing) a s
  | _ => true

theorem claims_of_claimsJob {j : Uuid} (h : claimsJob j a s s' = true) : Claims j a s s' := by
  cases a with
  | exec p i =>
    simp only [claimsJob, commitsClaim] at h
    obtain ⟨pr, hp, hpr⟩ := (Option.any_eq_true _ _).mp h
    obtain ⟨hprog, hmark⟩ := Bool.and_eq_true_iff.mp hpr
    obtain ⟨k, hk, hjob⟩ := (Option.any_eq_true _ _).mp hmark
    obtain ⟨r, hr, hq⟩ := (Option.any_eq_true _ _).mp hjob
    obtain ⟨hkj, htoken⟩ := Bool.and_eq_true_iff.mp hq
    obtain rfl := eq_of_beq hkj
    obtain ⟨m, hm, hmj⟩ := Option.bind_eq_some_iff.mp hk
    have hclaiming : m = .claiming k := by
      cases m <;> cases hmj
      rfl
    refine ⟨pr, r, ⟨p, i, rfl, hp, hprog⟩, by rw [hm, hclaiming], hr, fun hsame => ?_⟩
    simp [hsame] at htoken
  | _ => cases h

theorem recorded_of_oneAtATime (hs : ∀ q, q ≠ 0 → s.proc q = none)
    (h : oneAtATime a s = true) : Recorded a s := by
  refine ⟨fun p c t ha _ q pr hq => ?_, fun ⟨p, i, pr, j, r, ha, hp, hprog, hm, _, hr, hst⟩ => ?_⟩
  · rw [ha, oneAtATime] at h
    have h0 : s.proc 0 = none := by simpa using (Bool.and_eq_true_iff.mp h).2
    by_cases hq0 : q = 0
    · rw [hq0, h0] at hq
      cases hq
    · rw [hs q hq0] at hq
      cases hq
  · rw [ha, oneAtATime] at h
    simp [commitsClaim, hp, hprog, hm, IngestionMark.claimedJob, hr, hst] at h

/-- Processes but `0` do not begin. -/
theorem oneAtATime_step (hs : ∀ q, q ≠ 0 → s.proc q = none) (h : oneAtATime a s = true)
    (hstep : ingestionModel.step a s = some s') : ∀ q, q ≠ 0 → s'.proc q = none := by
  intro q hq
  refine Model.step_proc_none hstep (hs q hq) fun c ha => hq ?_
  rw [ha, oneAtATime] at h
  exact eq_of_beq (Bool.and_eq_true_iff.mp h).1

/-- A concrete run in which no claim is lost, and its claims of a job. -/
theorem exists_countedBy_recorded {j : Uuid} {l : List IngestionAct} {m : ℕ}
    (h : ingestionModel.countBy oneAtATime (claimsJob j) l (Model.idle (emptyIngestionDb now)) =
      some (m, s)) :
    ∃ n, m ≤ n ∧ ingestionModel.CountedBy Recorded (Claims j) (emptyIngestionDb now) n s := by
  obtain ⟨n, hn, hcount⟩ := Model.CountedBy.countBy (P := fun s => ∀ q, q ≠ 0 → s.proc q = none)
    (fun _ _ hP ht => recorded_of_oneAtATime hP ht)
    (fun _ _ _ hP ht hs => oneAtATime_step hP ht hs) (fun _ _ _ hk => claims_of_claimsJob hk)
    .start (fun _ _ => rfl) h
  exact ⟨n, by omega, hcount⟩

/-- A concrete run, and its claims of a job. -/
theorem exists_counted {j : Uuid} {l : List IngestionAct} {m : ℕ}
    (h : ingestionModel.countBy (fun _ _ => true) (claimsJob j) l
      (Model.idle (emptyIngestionDb now)) = some (m, s)) :
    ∃ n, m ≤ n ∧ ingestionModel.Counted (Claims j) (emptyIngestionDb now) n s := by
  obtain ⟨n, hn, hcount⟩ := Model.CountedBy.countBy (P := fun _ => True) (fun _ _ _ _ => trivial)
    (fun _ _ _ _ _ _ => trivial) (fun _ _ _ hk => claims_of_claimsJob hk) .start trivial h
  exact ⟨n, by omega, hcount⟩

/-- A file that cannot be parsed is tried three times. -/
theorem ingestion_claims_bounded_thrice : ∃ (s : IngestionSys) (r : IngestionRows),
    ingestionModel.CountedBy Recorded (Claims 7) (emptyIngestionDb 0) 3 s ∧
      s.db.jobs 7 = some r ∧ r.job.maxAttempts = 3 ∧ claimable s.db.now r.job = false := by
  have hrun : ((ingestionModel.countBy oneAtATime (claimsJob 7)
      (Model.serve 0 (.finalizeUpload 1 2 "" "") 8 { uuid := 7 } ++
        Model.serve 0 (.poll "w" 10) 40 { uuid := 10, hex := "a", output := { status := "?" } } ++
        Model.serve 0 (.poll "w" 11) 40 { uuid := 11, hex := "b", output := { status := "?" } } ++
        Model.serve 0 (.poll "w" 12) 44 { uuid := 12, hex := "c", output := { status := "?" } })
      (Model.idle (emptyIngestionDb 0))).bind fun x => (x.2.db.jobs 7).map fun r =>
        (x.1, r.job.maxAttempts, stale 15 x.2.db.now r.job)) = some (3, 3, false) := by
    decide +kernel
  obtain ⟨⟨m, s⟩, hm, hrow⟩ := Option.bind_eq_some_iff.mp hrun
  obtain ⟨r, hr, hx⟩ := Option.map_eq_some_iff.mp hrow
  obtain ⟨rfl, hmax, hstale⟩ : m = 3 ∧ r.job.maxAttempts = 3 ∧ stale 15 s.db.now r.job = false := by
    simpa using hx
  obtain ⟨n, hn, hcount⟩ := exists_countedBy_recorded hm
  have hbounded := ingestion_claims_bounded 0 7 n s r hcount hr
  obtain rfl : n = 3 := by omega
  exact ⟨s, r, hcount, hr, hmax, hbounded.2 hmax.symm hstale⟩

/-- **Claims are not bounded**: the worker dies whenever it has claimed the job. -/
theorem ingestion_claims_unbounded :
    ¬ ∀ (now : ℕ) (j : Uuid) (n : ℕ) (s : IngestionSys) (r : IngestionRows),
      ingestionModel.Counted (Claims j) (emptyIngestionDb now) n s → s.db.jobs j = some r →
        n ≤ r.job.maxAttempts := by
  intro hbounded
  have hrun : ((ingestionModel.countBy (fun _ _ => true) (claimsJob 7)
      (Model.serve 0 (.finalizeUpload 1 2 "" "") 8 { uuid := 7 } ++
        Model.serve 0 (.poll "w" 10) 11 { uuid := 10, hex := "a" } ++ [.crash 0, .env 1000] ++
        Model.serve 0 (.poll "w" 11) 11 { uuid := 11, hex := "b" } ++ [.crash 0, .env 1000] ++
        Model.serve 0 (.poll "w" 12) 11 { uuid := 12, hex := "c" } ++ [.crash 0, .env 1000] ++
        Model.serve 0 (.poll "w" 13) 11 { uuid := 13, hex := "d" })
      (Model.idle (emptyIngestionDb 0))).bind fun x => (x.2.db.jobs 7).map fun r =>
        (x.1, r.job.maxAttempts)) = some (4, 3) := by
    decide +kernel
  obtain ⟨⟨m, s⟩, hm, hrow⟩ := Option.bind_eq_some_iff.mp hrun
  obtain ⟨r, hr, hx⟩ := Option.map_eq_some_iff.mp hrow
  obtain ⟨rfl, hmax⟩ : m = 4 ∧ r.job.maxAttempts = 3 := by simpa using hx
  obtain ⟨n, hn, hcount⟩ := exists_counted hm
  have := hbounded 0 7 n s r hcount hr
  omega

end FinanceIntelligence
