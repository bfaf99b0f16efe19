import FinanceIntelligence.TerminalStatus

/-!
# Attempts and their job

The attempts of a job count from one: the engine numbers by the rows there are,
and an answer by the attempt that asked, which is the last one. What is not kept
is that an attempt ends with its job. A run closes its own attempt only, the
recovery looks for attempts that are `RUNNING`, an answer opens an attempt that no
run takes up, and a job that is cancelled or expires leaves its attempt open.

* `attempts_agree` — the numbers are right in **every** run; that an attempt ends with its job
  holds in the runs in which none is left in progress.
-/

namespace FinanceIntelligence

open ClaimAuthority

/-- The attempts count from one. -/
def Counted (l : List AnalysisAttempt) : Prop :=
  l.map (·.attemptNumber) = List.range' 1 l.length

/-- The number of attempts in progress. -/
def inProgress (l : List AnalysisAttempt) : ℕ := l.countP (·.status == .inProgress)

namespace Counted

variable {l : List AnalysisAttempt}

/-- One more attempt. -/
theorem append (h : Counted l) {a : AnalysisAttempt} (ha : a.attemptNumber = l.length + 1) :
    Counted (l ++ [a]) :=
  Numbering.Counts.concat h ha

/-- Other statuses. -/
theorem map (h : Counted l) {f : AnalysisAttempt → AnalysisAttempt}
    (hf : ∀ a, (f a).attemptNumber = a.attemptNumber) : Counted (l.map f) := by
  rw [Counted, List.map_map, List.length_map, ← h]
  exact List.map_congr_left fun a _ => hf a

theorem marked (h : Counted l) (id : Uuid) (st : AttemptStatus) : Counted (marked id st l) :=
  h.map fun a => by split <;> rfl

theorem opened (h : Counted l) (run : Option Uuid) : Counted (opened run l) := by
  cases run with
  | none => exact h
  | some id => exact h.append rfl

theorem closesRun (h : Counted l) {l' : List AnalysisAttempt} (hl : ClosesRun l l') :
    Counted l' := by
  cases hl with
  | rolledBack hl => exact hl ▸ h
  | own id st run _ _ hl =>
    rw [hl]
    exact (h.opened run).marked id st

end Counted

/-- The attempts of a job count from one, and a clarification that waits was asked
by the last one. -/
structure AttemptsCounted (r : JobRows) : Prop where
  /-- they count from one -/
  counted : Counted r.attempts
  /-- the last one asked -/
  asked : r.job.status = .needsClarification → ∀ x ∈ r.clarifications, x.status = .awaiting →
    x.attemptNumber = r.attempts.length

section Counting

variable {cfg : EngineConfig} {c : AnalysisCall} {m : Option Mark} {j : Uuid} {r r' : JobRows}

/-- A job that does not wait has not been asked by anyone. -/
theorem AttemptsCounted.of_counted {st : AnalysisJobStatus} (h : Counted r.attempts)
    (hr : r.job.status = st) (hst : st ≠ .needsClarification) : AttemptsCounted r :=
  ⟨h, fun hr' => absurd (hr.symm.trans hr') hst⟩

/-- The engine counts on. -/
theorem EngineChange.attemptsCounted (h : EngineChange cfg r r') (hr : AttemptsCounted r) :
    AttemptsCounted r' := by
  cases h with
  | toolCommitted h =>
    obtain ⟨req, hjob⟩ := h.job
    refine .of_counted ?_ (congrArg AnalysisJob.status hjob) nofun
    rw [h.attempts]
    exact hr.counted.opened _
  | clarified clar _ _ _ hclars _ _ hnone hattempts hnumber =>
    obtain ⟨id, hattempts⟩ := hattempts
    refine ⟨hattempts ▸ hr.counted.opened (some id), fun _ x hx hawaiting => ?_⟩
    rw [hclars] at hx
    rcases List.mem_append.mp hx with hx | hx
    · exact absurd hawaiting (hnone x hx)
    · rw [List.mem_singleton.mp hx, hnumber]
  | ended st hst hjob _ _ _ _ hattempts =>
    obtain ⟨req, hjob⟩ := hjob
    refine .of_counted (hr.counted.closesRun hattempts) (congrArg AnalysisJob.status hjob) ?_
    rcases hst with rfl | rfl <;> exact nofun
  | completed _ _ _ _ _ hjob _ _ _ _ _ hattempts =>
    obtain ⟨req, hjob⟩ := hjob
    exact .of_counted (hr.counted.closesRun hattempts) (congrArg AnalysisJob.status hjob) nofun

/-- **One step of a job** keeps its attempts counted. -/
theorem JobStep.attemptsCounted (h : JobStep cfg c m j r r') (hr : AttemptsCounted r) :
    AttemptsCounted r' := by
  cases h with
  | claim w token now _ _ _ hr' =>
    subst hr'
    exact .of_counted hr.counted (rfl : _ = AnalysisJobStatus.received) nofun
  | recover w token now _ _ _ hr' hattempts =>
    obtain ⟨attempts, rfl⟩ := hr'
    refine .of_counted ?_ (rfl : _ = AnalysisJobStatus.received) nofun
    rw [hattempts]
    exact hr.counted.map fun a => by split <;> rfl
  | renew token w lease _ _ hr' =>
    subst hr'
    exact ⟨hr.counted, hr.asked⟩
  | engine token w _ _ hr' => exact hr'.attemptsCounted hr
  | answerExpired _ _ _ _ _ hjob _ _ _ _ hattempts =>
    exact .of_counted (hattempts ▸ hr.counted) (congrArg AnalysisJob.status hjob) nofun
  | answered _ _ _ _ hst hjob _ _ _ _ hattempts =>
    obtain ⟨id, x, hx, -, hawaiting, hattempts⟩ := hattempts
    refine .of_counted ?_ (congrArg AnalysisJob.status hjob) nofun
    rw [hattempts]
    -- the attempt that asked is the last one
    exact hr.counted.append (congrArg (· + 1) (hr.asked hst x hx hawaiting))
  | clarificationCancelled _ _ _ _ hjob _ _ _ hattempts =>
    exact .of_counted (hattempts ▸ hr.counted) (congrArg AnalysisJob.status hjob) nofun
  | clarificationExpired _ _ hjob _ _ _ hattempts =>
    rcases hjob with ⟨-, hjob⟩ | ⟨hterminal, hjob⟩
    · exact .of_counted (hattempts ▸ hr.counted) (congrArg AnalysisJob.status hjob) nofun
    · refine .of_counted (hattempts ▸ hr.counted) (congrArg AnalysisJob.status hjob) ?_
      intro hst
      rw [hst] at hterminal
      cases hterminal
  | analysisCancelled user _ hr' =>
    subst hr'
    exact .of_counted hr.counted (rfl : _ = AnalysisJobStatus.cancelled) nofun
  | saved summary id _ _ hr' =>
    subst hr'
    exact .of_counted hr.counted (rfl : _ = AnalysisJobStatus.completed) nofun

/-- The attempts of a job are counted in every state. -/
theorem attemptsCounted_of_reachable {now : ℕ} {s : AnalysisSys}
    (h : AnalysisReachable cfg now s) (hr : s.db.rows j = some r) : AttemptsCounted r := by
  refine rows_invariant (P := fun _ r => AttemptsCounted r) (fun j job hjob => ?_)
    (fun _ _ _ _ hstep ih => hstep.attemptsCounted ih) h j r hr
  exact .of_counted rfl hjob.status nofun

end Counting

/-! ## Attempts in progress -/

/-- One attempt of a job is in progress at most, and none once the job has ended. -/
structure AttemptsClosed (r : JobRows) : Prop where
  /-- one at most -/
  one : inProgress r.attempts ≤ 1
  /-- none at the end -/
  ended : r.job.status.isTerminal = true → inProgress r.attempts = 0

/-- The calls other than a worker's. -/
def AnalysisCall.isUserCall : AnalysisCall → Bool
  | .respond _ _ _ _ | .cancelClarification _ _ _ | .expireDueClarifications _
  | .cancelAnalysis _ _ | .saveAnalysis _ _ => true
  | _ => false

/-- No user's call changes the status of a job that has an attempt in progress,
and no run of the engine commits on a job and leaves an earlier attempt of it in
progress. -/
def NoAttemptLeft (a : Act Answer AnalysisCall ℕ) (s : AnalysisSys) : Prop :=
  ∀ pr j r r', Model.Commits a s pr → s.db.rows j = some r →
    (analysisSchema.view pr.pending s.db).rows j = some r' →
      (pr.call.isUserCall = true → r'.job.status ≠ r.job.status → inProgress r.attempts = 0) ∧
      ∀ token w, pr.mark = some (.executing j token w) →
        inProgress (r'.attempts.take r.attempts.length) = 0

section Closing

variable {l l' : List AnalysisAttempt}

theorem inProgress_append : inProgress (l ++ l') = inProgress l + inProgress l' :=
  List.countP_append

/-- Closing attempts leaves no more of them in progress. -/
theorem inProgress_map_le {f : AnalysisAttempt → AnalysisAttempt}
    (hf : ∀ a, (f a).status = .inProgress → a.status = .inProgress) :
    inProgress (l.map f) ≤ inProgress l := by
  rw [inProgress, List.countP_map]
  exact List.countP_mono_left fun a _ ha => by simpa using hf a (by simpa using ha)

theorem inProgress_marked_le {id : Uuid} {st : AttemptStatus} (hst : st ≠ .inProgress) :
    inProgress (marked id st l) ≤ inProgress l := by
  refine inProgress_map_le fun a ha => ?_
  split at ha
  · exact absurd ha hst
  · exact ha

/-- A run that has opened its attempt. -/
theorem inProgress_opened (run : Option Uuid) (h : inProgress ((opened run l).take l.length) = 0) :
    inProgress (opened run l) ≤ 1 := by
  cases run with
  | none =>
    rw [opened, List.take_length] at h
    rw [opened, h]
    exact Nat.zero_le 1
  | some id =>
    rw [opened, List.take_left' rfl] at h
    rw [opened, inProgress_append, h, Nat.zero_add]
    exact List.countP_le_length

/-- A run that ends closes its own attempt; if it leaves no other one in progress,
none is. -/
theorem ClosesRun.inProgress_eq (hl : ClosesRun l l')
    (h : inProgress (l'.take l.length) = 0) : inProgress l' = 0 := by
  cases hl with
  | rolledBack hl =>
    rw [hl, List.take_length] at h
    rw [hl, h]
  | own id st run hrun hst hl =>
    rcases hrun with rfl | rfl
    · have hlength : (marked id st l).length = l.length := List.length_map ..
      rw [hl, opened, ← hlength, List.take_length] at h
      rw [hl, opened, h]
    · have hsplit : l' = marked id st l ++ [⟨id, l.length + 1, st⟩] := by
        rw [hl, opened, marked, List.map_append, List.map_singleton, if_pos (beq_self_eq_true id)]
        rfl
      have hlength : (marked id st l).length = l.length := List.length_map ..
      rw [hsplit, List.take_left' hlength] at h
      rw [hsplit, inProgress_append, h, inProgress, List.countP_singleton,
        if_neg (by simpa using hst)]

end Closing

section Steps

variable {cfg : EngineConfig} {c : AnalysisCall} {m : Option Mark} {j : Uuid} {r r' : JobRows}

/-- The attempts are as they were, and the status as well, or none is in
progress. -/
theorem AttemptsClosed.same (h : AttemptsClosed r) (hattempts : r'.attempts = r.attempts)
    (hst : r'.job.status ≠ r.job.status → inProgress r.attempts = 0) : AttemptsClosed r' := by
  refine ⟨hattempts ▸ h.one, fun hterminal => ?_⟩
  rw [hattempts]
  by_cases hsame : r'.job.status = r.job.status
  · exact h.ended (hsame ▸ hterminal)
  · exact hst hsame

/-- The job goes on. -/
theorem AttemptsClosed.of_le_one {st : AnalysisJobStatus} (h : inProgress r.attempts ≤ 1)
    (hr : r.job.status = st) (hst : st.isTerminal = false) : AttemptsClosed r := by
  refine ⟨h, fun hterminal => ?_⟩
  rw [hr, hst] at hterminal
  cases hterminal

/-- No attempt is in progress. -/
theorem AttemptsClosed.of_zero (h : inProgress r.attempts = 0) : AttemptsClosed r :=
  ⟨by omega, fun _ => h⟩

/-- The engine closes the attempt of its run, and leaves no other one open by
assumption. -/
theorem EngineChange.attemptsClosed (h : EngineChange cfg r r')
    (hleft : inProgress (r'.attempts.take r.attempts.length) = 0) : AttemptsClosed r' := by
  cases h with
  | @toolCommitted run h =>
    obtain ⟨req, hjob⟩ := h.job
    refine .of_le_one ?_ (congrArg AnalysisJob.status hjob) rfl
    rw [h.attempts] at hleft ⊢
    exact inProgress_opened run hleft
  | clarified clar _ hjob _ _ _ _ _ hattempts =>
    obtain ⟨req, hjob⟩ := hjob
    obtain ⟨id, hattempts⟩ := hattempts
    refine .of_le_one ?_ (congrArg AnalysisJob.status hjob) rfl
    rw [hattempts] at hleft ⊢
    exact inProgress_opened (some id) hleft
  | ended _ _ _ _ _ _ _ hattempts => exact .of_zero (hattempts.inProgress_eq hleft)
  | completed _ _ _ _ _ _ _ _ _ _ _ hattempts => exact .of_zero (hattempts.inProgress_eq hleft)

/-- **One step of a job** that leaves no attempt. -/
theorem JobStep.attemptsClosed (h : JobStep cfg c m j r r')
    (huser : c.isUserCall = true → r'.job.status ≠ r.job.status → inProgress r.attempts = 0)
    (hrun : ∀ token w, m = some (.executing j token w) →
      inProgress (r'.attempts.take r.attempts.length) = 0)
    (ha : AttemptsClosed r) : AttemptsClosed r' := by
  cases h with
  | claim w token now _ _ _ hr' =>
    subst hr'
    exact .of_le_one ha.one (rfl : _ = AnalysisJobStatus.received) rfl
  | recover w token now _ _ _ hr' hattempts =>
    obtain ⟨attempts, rfl⟩ := hr'
    refine .of_le_one ?_ (rfl : _ = AnalysisJobStatus.received) rfl
    rw [hattempts]
    refine Nat.le_trans (inProgress_map_le fun a hst => ?_) ha.one
    split at hst
    · cases hst
    · exact hst
  | renew token w lease _ _ hr' =>
    subst hr'
    exact ⟨ha.one, ha.ended⟩
  | engine token w hm _ hr' => exact hr'.attemptsClosed (hrun token w hm)
  | answerExpired _ _ _ hc _ _ _ _ _ _ hattempts =>
    exact ha.same hattempts (huser (by rw [hc]; rfl))
  | answered _ _ _ hc hst hjob _ _ _ _ hattempts =>
    obtain ⟨id, x, -, -, -, hattempts⟩ := hattempts
    have hstatus : r'.job.status = .understandingRequest := congrArg AnalysisJob.status hjob
    have hzero : inProgress r.attempts = 0 := by
      refine huser (by rw [hc]; rfl) ?_
      rw [hstatus, hst]
      exact nofun
    refine .of_le_one ?_ hstatus rfl
    rw [hattempts, inProgress_append, hzero, Nat.zero_add]
    exact List.countP_le_length
  | clarificationCancelled _ _ hc _ _ _ _ _ hattempts =>
    exact ha.same hattempts (huser (by rw [hc]; rfl))
  | clarificationExpired _ hc _ _ _ _ hattempts =>
    exact ha.same hattempts (huser (by rw [hc]; rfl))
  | analysisCancelled user hc hr' =>
    subst hr'
    exact ha.same rfl (huser (by rw [hc]; rfl))
  | saved summary id hc _ hr' =>
    subst hr'
    exact ha.same rfl (huser (by rw [hc]; rfl))

end Steps

/-! ## Every state of every run -/

/-- The attempts agree with their job. -/
structure AttemptsAgree (r : JobRows) : Prop where
  /-- they count from one -/
  numbers : r.attempts.map (·.attemptNumber) = List.range' 1 r.attempts.length
  /-- one is in progress at most -/
  one : r.attempts.countP (·.status == .inProgress) ≤ 1
  /-- none is once the job has ended -/
  ended : r.job.status.isTerminal = true → ∀ a ∈ r.attempts, a.status ≠ .inProgress

/-- **Attempts agree with their job** in every run in which no attempt is left in
progress; that they count from one holds in every run. -/
theorem attempts_agree {cfg : EngineConfig} {now : ℕ} {s : AnalysisSys}
    (h : (analysisModel cfg).ReachableBy NoAttemptLeft (emptyAnalysisDb now) s) {j : Uuid}
    {r : JobRows} (hr : s.db.rows j = some r) : AttemptsAgree r := by
  have hclosed : AttemptsClosed r := by
    refine rows_invariant (P := fun _ r => AttemptsClosed r) (fun j job hjob => .of_zero rfl)
      (fun {s a pr j r r'} hok hcommit hr hr' hstep ha => ?_) h j r hr
    obtain ⟨huser, hrun⟩ := hok pr j r r' hcommit hr hr'
    exact hstep.attemptsClosed huser hrun ha
  refine ⟨(attemptsCounted_of_reachable h.reachable hr).counted, hclosed.one,
    fun hterminal a ha => ?_⟩
  simpa using List.countP_eq_zero.mp (hclosed.ended hterminal) a ha

/-- A test that runs pass which close every earlier attempt, and no user's call. -/
def closesAttempts (a : Act Answer AnalysisCall ℕ) (s : AnalysisSys) : Bool :=
  match a with
  | .exec p _ => (s.proc p).all fun pr => !pr.call.isUserCall &&
    (!pr.prog.isCommit || match pr.mark with
      | some (.executing j _ _) => (s.db.rows j).all fun r =>
        ((analysisSchema.view pr.pending s.db).rows j).all fun r' =>
          inProgress (r'.attempts.take r.attempts.length) == 0
      | none => true)
  | _ => true

theorem noAttemptLeft_of_closes (a : Act Answer AnalysisCall ℕ) (s : AnalysisSys)
    (h : closesAttempts a s = true) : NoAttemptLeft a s := by
  rintro pr j r r' ⟨p, i, rfl, hp, hcommit⟩ hr hr'
  simp only [closesAttempts, hp, Option.all_some, Bool.and_eq_true, Bool.not_eq_true', hcommit,
    Bool.not_true, Bool.false_or] at h
  refine ⟨fun huser => ?_, fun token w hm => ?_⟩
  · rw [h.1] at huser
    cases huser
  · simpa [hm, hr, hr'] using h.2

/-- A job that ran to its end has one attempt, and that is closed. -/
theorem attempts_agree_completed : ∃ (s : AnalysisSys) (r : JobRows), s.db.rows 7 = some r ∧
    r.attempts.map (·.status) = [.completed] ∧ AttemptsAgree r := by
  have hrun : (((analysisModel ⟨.ascii⟩).runBy closesAttempts
      (Model.serve 0 (.createAnalysis 5 "Akbank 2025-Q4 toplam aktifler" none []) 5 { uuid := 7 } ++
        Model.serve 1 (.runOnce "w") 62 { uuid := 9, normalization := assetsUnderstood })
      (Model.idle (emptyAnalysisDb 100))).bind fun s => (s.db.rows 7).map fun r => r.attempts.map (·.status)) = some [.completed] := by
    decide +kernel
  obtain ⟨s, hs, hrest⟩ := Option.bind_eq_some_iff.mp hrun
  obtain ⟨r, hr, hst⟩ := Option.map_eq_some_iff.mp hrest
  have h := Model.ReachableBy.later .start (Model.LaterBy.of_runBy noAttemptLeft_of_closes hs)
  exact ⟨s, r, hr, hst, attempts_agree h hr⟩

/-- A job whose run has committed its tool is cancelled, and its attempt goes on. -/
theorem attempts_disagree :
    ¬ ∀ (cfg : EngineConfig) (now : ℕ) (s : AnalysisSys) (j : Uuid) (r : JobRows),
      AnalysisReachable cfg now s → s.db.rows j = some r → AttemptsAgree r := by
  intro hagree
  have hrun : (((analysisModel ⟨.ascii⟩).run
      (Model.serve 0 (.createAnalysis 5 "Akbank 2025-Q4 toplam aktifler" none []) 5 { uuid := 7 } ++
        Model.serve 1 (.runOnce "w") 40 { uuid := 9, normalization := assetsUnderstood } ++
        Model.serve 2 (.cancelAnalysis 7 5) 3 { uuid := 0 })
      (Model.idle (emptyAnalysisDb 100))).bind fun s => (s.db.rows 7).map fun r =>
        r.job.status == .cancelled && r.attempts.any (·.status == .inProgress)) = some true := by
    decide +kernel
  obtain ⟨s, hs, hrest⟩ := Option.bind_eq_some_iff.mp hrun
  obtain ⟨r, hr, htest⟩ := Option.map_eq_some_iff.mp hrest
  simp only [Bool.and_eq_true, beq_iff_eq, List.any_eq_true] at htest
  obtain ⟨hst, a, ha, hopen⟩ := htest
  have h : AnalysisReachable ⟨.ascii⟩ 100 s :=
    Model.ReachableBy.later .start (Model.LaterBy.of_runBy (fun _ _ _ => trivial) hs)
  exact (hagree _ _ s 7 r h hr).ended (by rw [hst]; rfl) a ha hopen

end FinanceIntelligence
