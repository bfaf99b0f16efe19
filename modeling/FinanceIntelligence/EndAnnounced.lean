import FinanceIntelligence.ClarificationLifecycle

/-!
# Announcing the end

The engine ends a job and its log in one transaction, and so does the expiry of a
batch. Four other writers end a job and leave the log as it is: the two ways to
cancel, an answer that comes too late, and `SaveAnalysisTool`. In a run without
them the log of a job says whether and how it has ended.

* `end_announced` — in such a run **every end is announced once**.
-/

namespace FinanceIntelligence

open ClaimAuthority

/-- The event tells a client that the analysis has ended with this status. -/
def EventType.announces : EventType → AnalysisJobStatus → Bool
  | .completed, .completed => true
  | .failed, .failed => true
  | .failed, .rejectedByPolicy => true
  | .clarificationExpired, .expired => true
  | _, _ => false

/-- The end of a job is announced once, by the last event of its log. -/
structure AnnouncedOnce (r : JobRows) : Prop where
  /-- a job that has ended -/
  ended : r.job.status.isTerminal = true → ∃ l e, r.events = l ++ [e] ∧
    (∀ x ∈ l, x.eventType.isTerminal = false) ∧ e.eventType.announces r.job.status = true
  /-- a job that has not -/
  goesOn : r.job.status.isTerminal = false → ∀ e ∈ r.events, e.eventType.isTerminal = false

namespace AnnouncedOnce

variable {r r' : JobRows}

/-- A job that goes on announces nothing. -/
theorem quiet (h : AnnouncedOnce r) (hr : r.job.status.isTerminal = false)
    (hevents : Quiet r.events r'.events) (hr' : r'.job.status.isTerminal = false) :
    AnnouncedOnce r' where
  ended hterminal := by
    rw [hr'] at hterminal
    cases hterminal
  goesOn _ e he := by
    obtain ⟨new, hnew, hquiet⟩ := hevents
    rw [hnew] at he
    rcases List.mem_append.mp he with he | he
    · exact h.goesOn hr e he
    · exact hquiet e he

/-- A job ends with its last event. -/
theorem announce (h : AnnouncedOnce r) (hr : r.job.status.isTerminal = false) {t : EventType}
    (hevents : Announces t r.events r'.events) {new : AnalysisJobStatus}
    (hjob : r'.job.status = new) (ht : t.announces new = true) (hnew : new.isTerminal = true) :
    AnnouncedOnce r' where
  ended _ := by
    obtain ⟨l, e, ⟨added, rfl, hquiet⟩, hr', rfl⟩ := hevents
    refine ⟨_, e, hr', fun x hx => ?_, hjob ▸ ht⟩
    rcases List.mem_append.mp hx with hx | hx
    · exact h.goesOn hr x hx
    · exact hquiet x hx
  goesOn hr' := by
    rw [hjob, hnew] at hr'
    cases hr'

/-- Neither the status nor the log changes. -/
theorem same (h : AnnouncedOnce r) (hst : r'.job.status = r.job.status)
    (hevents : r'.events = r.events) : AnnouncedOnce r' := by
  refine ⟨?_, ?_⟩ <;> rw [hst, hevents]
  · exact h.ended
  · exact h.goesOn

end AnnouncedOnce

/-- None of the four writers that end a job silently commits; the answer to a
question does not find it expired. -/
def NoSilentEnd (a : Act Answer AnalysisCall ℕ) (s : AnalysisSys) : Prop :=
  ∀ pr j r r', Model.Commits a s pr → s.db.rows j = some r →
    (analysisSchema.view pr.pending s.db).rows j = some r' →
      (∀ user, pr.call ≠ .cancelAnalysis j user) ∧
      (∀ clar user, pr.call ≠ .cancelClarification j clar user) ∧
      (∀ summary, pr.call ≠ .saveAnalysis j summary) ∧
      ∀ clar user payload, pr.call = .respond j clar user payload → r'.job.status ≠ .expired

section Steps

variable {cfg : EngineConfig} {c : AnalysisCall} {m : Option Mark} {j : Uuid} {r r' : JobRows}

/-- The engine announces what it ends. -/
theorem EngineChange.announcedOnce (h : EngineChange cfg r r')
    (hr : r.job.status.isTerminal = false) (ha : AnnouncedOnce r) : AnnouncedOnce r' := by
  cases h with
  | toolCommitted h =>
    obtain ⟨req, hjob⟩ := h.job
    exact ha.quiet hr h.quiet (by rw [hjob]; rfl)
  | clarified clar _ hjob hevents =>
    obtain ⟨req, hjob⟩ := hjob
    exact ha.quiet hr hevents (by rw [hjob]; rfl)
  | ended st hst hjob hevents =>
    obtain ⟨req, hjob⟩ := hjob
    have hstatus : r'.job.status = st := congrArg AnalysisJob.status hjob
    rcases hst with rfl | rfl
    · exact ha.announce hr hevents hstatus rfl rfl
    · exact ha.announce hr hevents hstatus rfl rfl
  | completed _ _ _ _ _ hjob hevents =>
    obtain ⟨req, hjob⟩ := hjob
    exact ha.announce hr hevents (congrArg AnalysisJob.status hjob) rfl rfl

/-- **One step of a job** that is not one of the silent ends. -/
theorem JobStep.announcedOnce (h : JobStep cfg c m j r r')
    (hcancel : ∀ user, c ≠ .cancelAnalysis j user)
    (hcancelled : ∀ clar user, c ≠ .cancelClarification j clar user)
    (hsave : ∀ summary, c ≠ .saveAnalysis j summary)
    (hlate : ∀ clar user payload, c = .respond j clar user payload → r'.job.status ≠ .expired)
    (hw : WaitTogether r) (ha : AnnouncedOnce r) : AnnouncedOnce r' := by
  cases h with
  | claim w token now _ _ hr hr' =>
    subst hr'
    simp only [claimable, Bool.and_eq_true, beq_iff_eq] at hr
    exact ha.quiet (by rw [hr.1.1.1]; rfl) (.refl _) rfl
  | recover w token now _ _ hr hr' =>
    obtain ⟨attempts, rfl⟩ := hr'
    obtain ⟨t, hr⟩ := hr
    simp only [recoverable, Bool.and_eq_true] at hr
    have hworking := AnalysisJobStatus.isWorking_of_isRecoverable hr.1.1.1
    exact ha.quiet (AnalysisJobStatus.not_isTerminal_of_isWorking hworking) (.refl _) rfl
  | renew token w lease _ _ hr' =>
    subst hr'
    exact ha.same rfl rfl
  | engine token w _ hr hr' => exact hr'.announcedOnce (not_isTerminal_of_ownedBy hr) ha
  | answerExpired clar user payload hc _ hjob => exact absurd (by rw [hjob]) (hlate clar user payload hc)
  | answered _ _ _ _ hr hjob hevents =>
    exact ha.quiet (by rw [hr]; rfl) hevents (by rw [hjob]; rfl)
  | clarificationCancelled clar user hc => exact absurd hc (hcancelled clar user)
  | clarificationExpired _ _ hjob hevents _ hclars =>
    -- the clarification waited, so the job did
    obtain ⟨clar, -, x, hx, -, hawaiting⟩ := hclars
    have hneeds : r.job.status = .needsClarification := hw.waits.mp ⟨x, hx, hawaiting⟩
    have hgoesOn : r.job.status.isTerminal = false := by rw [hneeds]; rfl
    rcases hjob with ⟨-, hjob⟩ | ⟨hterminal, -⟩
    · exact ha.announce hgoesOn hevents (congrArg AnalysisJob.status hjob) rfl rfl
    · rw [hgoesOn] at hterminal
      cases hterminal
  | analysisCancelled user hc => exact absurd hc (hcancel user)
  | saved summary _ hc => exact absurd hc (hsave summary)

end Steps

/-- **Every end is announced once** in a run without a silent end. Then a client that waits for the
last event of a job that has ended does not wait in vain. -/
theorem end_announced {cfg : EngineConfig} {now : ℕ} {s : AnalysisSys}
    (h : (analysisModel cfg).ReachableBy NoSilentEnd (emptyAnalysisDb now) s) {j : Uuid}
    {r : JobRows} (hr : s.db.rows j = some r) : AnnouncedOnce r := by
  refine (rows_invariant (P := fun _ r => OneAwaiting r ∧ WaitTogether r ∧ AnnouncedOnce r)
    (fun j job hjob => ?_) (fun {s a pr j r r'} hok hcommit hr hr' hstep ⟨hone, hw, ha⟩ => ?_)
    h j r hr).2.2
  · refine ⟨Nat.zero_le 1, ⟨⟨fun ⟨_, hx, _⟩ => (nomatch hx), fun hst => ?_⟩,
      fun _ hx => (nomatch hx)⟩, fun hterminal => ?_, fun _ _ he => (nomatch he)⟩
    · rw [hjob.status] at hst
      cases hst
    · rw [hjob.status] at hterminal
      cases hterminal
  · obtain ⟨hcancel, hcancelled, hsave, hlate⟩ := hok pr j r r' hcommit hr hr'
    exact ⟨hstep.oneAwaiting hone, hstep.waitTogether hone (fun _ => ⟨hcancel, hsave⟩) hw,
      hstep.announcedOnce hcancel hcancelled hsave hlate hw ha⟩

/-- A test that no step of a router, tool or clarification call passes. -/
def byWorker (a : Act Answer AnalysisCall ℕ) (s : AnalysisSys) : Bool :=
  match a with
  | .exec p _ => (s.proc p).all fun pr =>
    match pr.call with
    | .createAnalysis _ _ _ _ | .runOnce _ => true
    | _ => false
  | _ => true

theorem noSilentEnd_of_worker (a : Act Answer AnalysisCall ℕ) (s : AnalysisSys)
    (h : byWorker a s = true) : NoSilentEnd a s := by
  rintro pr j r r' ⟨p, i, rfl, hp, -⟩ - -
  simp only [byWorker, hp, Option.all_some] at h
  refine ⟨fun user hc => ?_, fun clar user hc => ?_, fun summary hc => ?_,
    fun clar user payload hc => ?_⟩ <;> simp [hc] at h

/-- A job that ran to its end. -/
theorem end_announced_completed : ∃ (s : AnalysisSys) (r : JobRows), s.db.rows 7 = some r ∧
    r.job.status = .completed ∧ AnnouncedOnce r := by
  have hrun : (((analysisModel ⟨.ascii⟩).runBy byWorker
      (Model.serve 0 (.createAnalysis 5 "Akbank 2025-Q4 toplam aktifler" none []) 5 { uuid := 7 } ++
        Model.serve 1 (.runOnce "w") 62 { uuid := 9, normalization := assetsUnderstood })
      (Model.idle (emptyAnalysisDb 100))).bind fun s => (s.db.rows 7).map fun r =>
        r.job.status) = some .completed := by
    decide +kernel
  obtain ⟨s, hs, hrest⟩ := Option.bind_eq_some_iff.mp hrun
  obtain ⟨r, hr, hst⟩ := Option.map_eq_some_iff.mp hrest
  have h := Model.ReachableBy.later .start (Model.LaterBy.of_runBy noSilentEnd_of_worker hs)
  exact ⟨s, r, hr, hst, end_announced h hr⟩

/-- An answer comes too late: the job has expired, and nothing in its log says so. -/
theorem end_not_announced :
    ¬ ∀ (cfg : EngineConfig) (now : ℕ) (s : AnalysisSys) (j : Uuid) (r : JobRows),
      AnalysisReachable cfg now s → s.db.rows j = some r → AnnouncedOnce r := by
  intro hannounced
  have hrun : (((analysisModel ⟨.ascii⟩).run
      (Model.serve 0 (.createAnalysis 5 "2025-Q4" none []) 5 { uuid := 7 } ++
        Model.serve 1 (.runOnce "w") 33 { uuid := 9, normalization := institutionAsked } ++
        .env 901 :: Model.serve 2 (.respond 7 9 5 []) 8 { uuid := 11 })
      (Model.idle (emptyAnalysisDb 100))).bind fun s => (s.db.rows 7).map fun r =>
        r.job.status == .expired && r.events.all fun e => !e.eventType.isTerminal) =
          some true := by
    decide +kernel
  obtain ⟨s, hs, hrest⟩ := Option.bind_eq_some_iff.mp hrun
  obtain ⟨r, hr, htest⟩ := Option.map_eq_some_iff.mp hrest
  simp only [Bool.and_eq_true, beq_iff_eq, List.all_eq_true, Bool.not_eq_true'] at htest
  obtain ⟨hst, hquiet⟩ := htest
  have h : AnalysisReachable ⟨.ascii⟩ 100 s :=
    Model.ReachableBy.later .start (Model.LaterBy.of_runBy (fun _ _ _ => trivial) hs)
  obtain ⟨l, e, hevents, -, he⟩ := (hannounced _ _ s 7 r h hr).ended (by rw [hst]; rfl)
  have hlast := hquiet e (by rw [hevents]; exact List.mem_append_right _ (List.mem_singleton_self e))
  rw [hst] at he
  revert he hlast
  cases e.eventType <;> decide

end FinanceIntelligence
