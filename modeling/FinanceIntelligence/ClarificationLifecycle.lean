import FinanceIntelligence.TerminalStatus

/-!
# The lifecycle of a clarification

A clarification that is settled stays as it is, by the trigger, and one at most
waits per job, by the unique index. That it waits exactly while its job does is
up to the code: `cancel_analysis` ends a job that waits and leaves its question
open, and so does `SaveAnalysisTool`.

* `clarification_lifecycle` — the whole of it, **in every run** in which neither happens to a job
  that waits.
-/

namespace FinanceIntelligence

open ClaimAuthority

/-! ## Settled clarifications -/

/-- Each clarification keeps its place and its id, and its status once it waits no
more. -/
def SettledStay (l l' : List AnalysisClarification) : Prop :=
  ∀ (i : ℕ) (x : AnalysisClarification), l[i]? = some x → ∃ x', l'[i]? = some x' ∧ x'.id = x.id ∧
    (x.status ≠ .awaiting → x'.status = x.status)

theorem SettledStay.refl (l : List AnalysisClarification) : SettledStay l l :=
  fun _ x hx => ⟨x, hx, rfl, fun _ => rfl⟩

theorem SettledStay.trans {l₁ l₂ l₃ : List AnalysisClarification} (h : SettledStay l₁ l₂)
    (h' : SettledStay l₂ l₃) : SettledStay l₁ l₃ := by
  intro i x hx
  obtain ⟨x', hx', hid, hst⟩ := h i x hx
  obtain ⟨x'', hx'', hid', hst'⟩ := h' i x' hx'
  refine ⟨x'', hx'', hid'.trans hid, fun hsettled => ?_⟩
  have hsame : x'.status = x.status := hst hsettled
  rw [hst' (hsame ▸ hsettled), hsame]

section Steps

variable {cfg : EngineConfig} {c : AnalysisCall} {m : Option Mark} {j cl : Uuid} {r r' : JobRows}
  {st : ClarificationStatus}

/-- Only a clarification that waits is settled. -/
theorem Settles.settledStay (h : Settles cl st r r') :
    SettledStay r.clarifications r'.clarifications := by
  obtain ⟨set, hset, hclars⟩ := h.settled
  intro i x hx
  refine ⟨if x.id = cl then set x else x, by rw [hclars, List.getElem?_map, hx]; rfl, ?_,
    fun hsettled => ?_⟩
  · split
    · exact (hset x).1
    · rfl
  · split
    · rename_i hid
      have hmem : x ∈ r.clarifications := List.mem_iff_getElem?.mpr ⟨i, hx⟩
      rcases h.trigger x hmem hid with hwaits | hsame
      · exact absurd hwaits hsettled
      · rw [(hset x).2, hsame]
    · rfl

/-- **One step of a job** keeps the clarifications that are settled. -/
theorem JobStep.settledStay (h : JobStep cfg c m j r r') :
    SettledStay r.clarifications r'.clarifications := by
  have hsame : r'.clarifications = r.clarifications →
      SettledStay r.clarifications r'.clarifications := fun hclars => hclars ▸ .refl _
  cases h with
  | claim w token now _ _ _ hr' => exact hsame (by rw [hr'])
  | recover w token now _ _ _ hr' =>
    obtain ⟨attempts, hr'⟩ := hr'
    exact hsame (by rw [hr'])
  | renew token w lease _ _ hr' => exact hsame (by rw [hr'])
  | engine token w _ _ hr' =>
    cases hr' with
    | toolCommitted h => exact hsame h.clarifications
    | clarified clar _ _ _ hclars =>
      intro i x hx
      have hlt : i < r.clarifications.length := (List.getElem?_eq_some_iff.mp hx).1
      exact ⟨x, by rw [hclars, List.getElem?_append_left hlt, hx], rfl, fun _ => rfl⟩
    | ended _ _ _ _ hclars => exact hsame hclars
    | completed _ _ _ _ _ _ _ hclars => exact hsame hclars
  | answerExpired _ _ _ _ _ _ _ _ hclars => exact hclars.settledStay
  | answered _ _ _ _ _ _ _ _ hclars => exact hclars.settledStay
  | clarificationCancelled _ _ _ _ _ _ _ hclars => exact hclars.settledStay
  | clarificationExpired _ _ _ _ _ hclars =>
    obtain ⟨clar, hclars, -⟩ := hclars
    exact hclars.settledStay
  | analysisCancelled user _ hr' => exact hsame (by rw [hr'])
  | saved summary id _ _ hr' => exact hsame (by rw [hr'])

end Steps

/-- What is settled stays so in every later state. -/
theorem settledStay_later {cfg : EngineConfig} {now : ℕ} {s s' : AnalysisSys}
    (h : AnalysisReachable cfg now s) (hl : (analysisModel cfg).Later s s') {j : Uuid}
    {r : JobRows} (hr : s.db.rows j = some r) :
    ∃ r', s'.db.rows j = some r' ∧ SettledStay r.clarifications r'.clarifications :=
  rows_later (fun r r' => SettledStay r.clarifications r'.clarifications) (fun _ => .refl _)
    SettledStay.trans (fun hstep => hstep.settledStay) h hl hr

/-! ## The job and its clarification -/

/-- A job waits exactly while a clarification of it does; and one that expired or
was cancelled has ended the job. -/
structure WaitTogether (r : JobRows) : Prop where
  /-- they wait together -/
  waits : (∃ x ∈ r.clarifications, x.status = .awaiting) ↔ r.job.status = .needsClarification
  /-- they end together -/
  ends : ∀ x ∈ r.clarifications, x.status = .expired ∨ x.status = .cancelled →
    r.job.status.isTerminal = true

/-- The one that waits is the only one. -/
theorem OneAwaiting.eq {r : JobRows} (h : OneAwaiting r) {x y : AnalysisClarification}
    (hx : x ∈ r.clarifications) (hy : y ∈ r.clarifications) (hxs : x.status = .awaiting)
    (hys : y.status = .awaiting) : x = y := by
  rw [OneAwaiting, List.countP_eq_length_filter] at h
  have hx' : x ∈ r.clarifications.filter (·.status == .awaiting) :=
    List.mem_filter.mpr ⟨hx, beq_iff_eq.mpr hxs⟩
  have hy' : y ∈ r.clarifications.filter (·.status == .awaiting) :=
    List.mem_filter.mpr ⟨hy, beq_iff_eq.mpr hys⟩
  generalize r.clarifications.filter (·.status == .awaiting) = l at h hx' hy'
  rcases l with _ | ⟨z, _ | ⟨z', l⟩⟩
  · cases hx'
  · rw [List.mem_singleton.mp hx', List.mem_singleton.mp hy']
  · simp at h

namespace WaitTogether

variable {r r' : JobRows} {new : AnalysisJobStatus}

/-- Nothing happens to the clarifications, and the job does not wait. -/
theorem idle (h : WaitTogether r) (hclars : r'.clarifications = r.clarifications)
    (hr : r.job.status ≠ .needsClarification) (hr' : r'.job.status = new)
    (hnew : new ≠ .needsClarification)
    (hterminal : r.job.status.isTerminal = true → new.isTerminal = true) : WaitTogether r' where
  waits := by
    rw [hclars, hr']
    exact ⟨fun hx => absurd (h.waits.mp hx) hr, fun hst => absurd hst hnew⟩
  ends x hx hst := by
    rw [hr']
    exact hterminal (h.ends x (hclars ▸ hx) hst)

/-- The job works on, and the clarifications are as they were. -/
theorem working (h : WaitTogether r) (hclars : r'.clarifications = r.clarifications)
    (hr : r.job.status.isWorking = true) (hr' : r'.job.status = new)
    (hnew : new ≠ .needsClarification) : WaitTogether r' := by
  refine h.idle hclars (fun hst => ?_) hr' hnew fun hterminal => ?_
  · rw [hst] at hr
    cases hr
  · rw [AnalysisJobStatus.not_isTerminal_of_isWorking hr] at hterminal
    cases hterminal

/-- Neither the status nor the clarifications change. -/
theorem same (h : WaitTogether r) (hclars : r'.clarifications = r.clarifications)
    (hst : r'.job.status = r.job.status) : WaitTogether r' where
  waits := by
    rw [hclars, hst]
    exact h.waits
  ends := by
    rw [hclars, hst]
    exact h.ends

/-- The clarification that waits is settled, and the job with it. -/
theorem settle (h : WaitTogether r) (hone : OneAwaiting r) {cl : Uuid} {st : ClarificationStatus}
    (hs : Settles cl st r r') (hopen : Awaits cl r) (hst : st ≠ .awaiting)
    (hjob : r'.job.status = new) (hnew : new ≠ .needsClarification)
    (hterminal : st = .received ∨ new.isTerminal = true) : WaitTogether r' := by
  obtain ⟨set, hset, hclars⟩ := hs.settled
  obtain ⟨y, hy, hid, hawaiting⟩ := hopen
  have hneeds : r.job.status = .needsClarification := h.waits.mp ⟨y, hy, hawaiting⟩
  refine ⟨⟨fun hx => ?_, fun hst' => absurd (hjob.symm.trans hst') hnew⟩,
    fun x hx hended => ?_⟩
  · -- the only one that waited is settled
    obtain ⟨x', hx', hxs⟩ := hx
    rw [hclars] at hx'
    obtain ⟨x, hx, rfl⟩ := List.mem_map.mp hx'
    split at hxs
    · rw [(hset x).2] at hxs
      exact absurd hxs hst
    · rename_i hne
      exact absurd (hone.eq hx hy hxs hawaiting ▸ hid) hne
  · rw [hclars] at hx
    obtain ⟨z, hz, rfl⟩ := List.mem_map.mp hx
    split at hended
    · rw [(hset z).2] at hended
      rcases hterminal with rfl | hterminal
      · simp at hended
      · rw [hjob]
        exact hterminal
    · have hended' := h.ends z hz hended
      rw [hneeds] at hended'
      cases hended'

end WaitTogether

/-- `cancel_analysis` and `SaveAnalysisTool` commit on no job that waits for an
answer. -/
def NoEndWhileWaiting (a : Act Answer AnalysisCall ℕ) (s : AnalysisSys) : Prop :=
  ∀ pr j r, Model.Commits a s pr → s.db.rows j = some r → r.job.status = .needsClarification →
    (∀ user, pr.call ≠ .cancelAnalysis j user) ∧ ∀ summary, pr.call ≠ .saveAnalysis j summary

section Steps

variable {cfg : EngineConfig} {c : AnalysisCall} {m : Option Mark} {j : Uuid} {r r' : JobRows}

/-- An engine works on a job that does not wait. -/
theorem EngineChange.waitTogether (h : EngineChange cfg r r') (hr : r.job.status.isWorking = true)
    (hw : WaitTogether r) : WaitTogether r' := by
  cases h with
  | toolCommitted h =>
    obtain ⟨req, hjob⟩ := h.job
    exact hw.working h.clarifications hr (congrArg AnalysisJob.status hjob) nofun
  | clarified clar hclar hjob _ hclars =>
    obtain ⟨req, hjob⟩ := hjob
    refine ⟨⟨fun _ => by rw [hjob], fun _ => ⟨clar, ?_, hclar⟩⟩, fun x hx hended => ?_⟩
    · rw [hclars]
      exact List.mem_append_right _ (List.mem_singleton_self _)
    · rw [hclars] at hx
      rcases List.mem_append.mp hx with hx | hx
      · have hterminal := hw.ends x hx hended
        rw [AnalysisJobStatus.not_isTerminal_of_isWorking hr] at hterminal
        cases hterminal
      · rw [List.mem_singleton.mp hx, hclar] at hended
        simp at hended
  | ended st hst hjob _ hclars =>
    obtain ⟨req, hjob⟩ := hjob
    refine hw.working hclars hr (congrArg AnalysisJob.status hjob) ?_
    rcases hst with rfl | rfl <;> exact nofun
  | completed _ _ _ _ _ hjob _ hclars =>
    obtain ⟨req, hjob⟩ := hjob
    exact hw.working hclars hr (congrArg AnalysisJob.status hjob) nofun

/-- **One step of a job** keeps it together with its clarification, unless one of
the two writers ends it while it waits. -/
theorem JobStep.waitTogether (h : JobStep cfg c m j r r') (hone : OneAwaiting r)
    (hok : r.job.status = .needsClarification →
      (∀ user, c ≠ .cancelAnalysis j user) ∧ ∀ summary, c ≠ .saveAnalysis j summary)
    (hw : WaitTogether r) : WaitTogether r' := by
  cases h with
  | claim w token now _ _ hr hr' =>
    subst hr'
    simp only [claimable, Bool.and_eq_true, beq_iff_eq] at hr
    refine hw.same rfl ?_
    rw [hr.1.1.1]
    rfl
  | recover w token now _ _ hr hr' =>
    obtain ⟨attempts, rfl⟩ := hr'
    obtain ⟨t, hr⟩ := hr
    simp only [recoverable, Bool.and_eq_true] at hr
    exact hw.working rfl (AnalysisJobStatus.isWorking_of_isRecoverable hr.1.1.1)
      (rfl : _ = AnalysisJobStatus.received) (by rintro ⟨⟩)
  | renew token w lease _ _ hr' =>
    subst hr'
    exact hw.same rfl rfl
  | engine token w _ hr hr' =>
    simp only [ownedBy, Bool.and_eq_true] at hr
    exact hr'.waitTogether hr.2 hw
  | answerExpired _ _ _ _ _ hjob _ _ hclars hopen =>
    exact hw.settle hone hclars hopen (by decide) (congrArg AnalysisJob.status hjob) (by rintro ⟨⟩)
      (.inr rfl)
  | answered _ _ _ _ _ hjob _ _ hclars hopen =>
    exact hw.settle hone hclars hopen (by decide) (congrArg AnalysisJob.status hjob) (by rintro ⟨⟩)
      (.inl rfl)
  | clarificationCancelled clar _ _ hr hjob _ _ hclars =>
    -- a clarification that was cancelled before would have ended the job
    obtain ⟨x, hx, hid⟩ := hclars.mem
    rcases hclars.trigger x hx hid with hawaiting | hcancelled
    · exact hw.settle hone hclars ⟨x, hx, hid, hawaiting⟩ (by decide)
        (congrArg AnalysisJob.status hjob) (by rintro ⟨⟩) (.inr rfl)
    · have hterminal := hw.ends x hx (.inr hcancelled)
      rw [hr] at hterminal
      cases hterminal
  | clarificationExpired _ _ hjob _ _ hclars =>
    obtain ⟨clar, hclars, x, hx, hid, hawaiting⟩ := hclars
    have hneeds : r.job.status = .needsClarification := hw.waits.mp ⟨x, hx, hawaiting⟩
    rcases hjob with ⟨-, hjob⟩ | ⟨hterminal, -⟩
    · exact hw.settle hone hclars ⟨x, hx, hid, hawaiting⟩ (by decide)
        (congrArg AnalysisJob.status hjob) (by rintro ⟨⟩) (.inr rfl)
    · rw [hneeds] at hterminal
      cases hterminal
  | analysisCancelled user hc hr' =>
    subst hr'
    exact hw.idle rfl (fun hst => (hok hst).1 user hc) (rfl : _ = AnalysisJobStatus.cancelled)
      (by rintro ⟨⟩) fun _ => rfl
  | saved summary id hc _ hr' =>
    subst hr'
    exact hw.idle rfl (fun hst => (hok hst).2 summary hc) (rfl : _ = AnalysisJobStatus.completed)
      (by rintro ⟨⟩) fun _ => rfl

end Steps

/-! ## Every state of every run -/

variable {cfg : EngineConfig} {now : ℕ}

/-- One clarification of a job waits at most, in every state. -/
theorem oneAwaiting_of_reachable {s : AnalysisSys} (h : AnalysisReachable cfg now s) {j : Uuid}
    {r : JobRows} (hr : s.db.rows j = some r) : OneAwaiting r :=
  (analysis_safe h).inv.oneAwaiting j r hr

/-- A job and its clarification wait together, in a run in which no job that waits
is ended by the two writers. -/
theorem waitTogether_of_reachable {s : AnalysisSys}
    (h : (analysisModel cfg).ReachableBy NoEndWhileWaiting (emptyAnalysisDb now) s) {j : Uuid}
    {r : JobRows} (hr : s.db.rows j = some r) : WaitTogether r := by
  refine (rows_invariant (P := fun _ r => OneAwaiting r ∧ WaitTogether r) (fun j job hjob => ?_)
    (fun {s a pr j r r'} hok hcommit hr _ hstep ⟨hone, hw⟩ => ?_) h j r hr).2
  · refine ⟨Nat.zero_le 1, ⟨fun ⟨_, hx, _⟩ => (nomatch hx), fun hst => ?_⟩, fun _ hx => (nomatch hx)⟩
    rw [hjob.status] at hst
    cases hst
  · exact ⟨hstep.oneAwaiting hone, hstep.waitTogether hone (hok pr j r hcommit hr) hw⟩

/-- The lifecycle of the clarifications of a job. -/
structure ClarificationsKept (cfg : EngineConfig) (s : AnalysisSys) (j : Uuid) (r : JobRows) :
    Prop where
  /-- one waits exactly while the job does -/
  together : (∃ x ∈ r.clarifications, x.status = .awaiting) ↔ r.job.status = .needsClarification
  /-- and it is the only one -/
  one : r.clarifications.countP (·.status == .awaiting) ≤ 1
  /-- one that waits no more keeps its status -/
  settled : ∀ s', (analysisModel cfg).Later s s' →
    ∃ r', s'.db.rows j = some r' ∧ SettledStay r.clarifications r'.clarifications

/-- **The lifecycle of clarifications** in every run in which no job that waits is cancelled by
`cancel_analysis` or completed by `SaveAnalysisTool`. The runs include every crash and every order
of answers, cancellations and expiries. -/
theorem clarification_lifecycle {s : AnalysisSys}
    (h : (analysisModel cfg).ReachableBy NoEndWhileWaiting (emptyAnalysisDb now) s) {j : Uuid}
    {r : JobRows} (hr : s.db.rows j = some r) : ClarificationsKept cfg s j r where
  together := (waitTogether_of_reachable h hr).waits
  one := oneAwaiting_of_reachable h.reachable hr
  settled _ hl := settledStay_later h.reachable hl hr

/-- A test that no step of the two writers passes passes no late end either. -/
theorem noEndWhileWaiting_of_otherCall (a : Act Answer AnalysisCall ℕ) (s : AnalysisSys)
    (h : byOtherCall a s = true) : NoEndWhileWaiting a s := by
  rintro pr j r ⟨p, i, rfl, hp, -⟩ - -
  simp only [byOtherCall, hp, Option.all_some] at h
  refine ⟨fun user hc => ?_, fun summary hc => ?_⟩ <;> simp [hc] at h

/-- A job that waits, and its clarification. -/
theorem clarification_lifecycle_needsClarification : ∃ (s : AnalysisSys) (r : JobRows),
    s.db.rows 7 = some r ∧ r.job.status = .needsClarification ∧
      ClarificationsKept ⟨.ascii⟩ s 7 r := by
  have hrun : (((analysisModel ⟨.ascii⟩).runBy byOtherCall
      (Model.serve 0 (.createAnalysis 5 "2025-Q4" none []) 5 { uuid := 7 } ++
        Model.serve 1 (.runOnce "w") 33 { uuid := 9, normalization := institutionAsked })
      (Model.idle (emptyAnalysisDb 100))).bind fun s => (s.db.rows 7).map fun r =>
        r.job.status) = some .needsClarification := by
    decide +kernel
  obtain ⟨s, hs, hrest⟩ := Option.bind_eq_some_iff.mp hrun
  obtain ⟨r, hr, hst⟩ := Option.map_eq_some_iff.mp hrest
  have h := Model.ReachableBy.later .start
    (Model.LaterBy.of_runBy noEndWhileWaiting_of_otherCall hs)
  exact ⟨s, r, hr, hst, clarification_lifecycle h hr⟩

/-- A job that waits is cancelled, and its clarification goes on waiting. -/
theorem clarification_lifecycle_broken :
    ¬ ∀ (cfg : EngineConfig) (now : ℕ) (s : AnalysisSys) (j : Uuid) (r : JobRows),
      AnalysisReachable cfg now s → s.db.rows j = some r → ClarificationsKept cfg s j r := by
  intro hkept
  have hrun : (((analysisModel ⟨.ascii⟩).run
      (Model.serve 0 (.createAnalysis 5 "2025-Q4" none []) 5 { uuid := 7 } ++
        Model.serve 1 (.runOnce "w") 33 { uuid := 9, normalization := institutionAsked } ++
        Model.serve 2 (.cancelAnalysis 7 5) 3 { uuid := 0 })
      (Model.idle (emptyAnalysisDb 100))).bind fun s => (s.db.rows 7).map fun r =>
        r.job.status == .cancelled && r.clarifications.any (·.status == .awaiting)) =
          some true := by
    decide +kernel
  obtain ⟨s, hs, hrest⟩ := Option.bind_eq_some_iff.mp hrun
  obtain ⟨r, hr, htest⟩ := Option.map_eq_some_iff.mp hrest
  simp only [Bool.and_eq_true, beq_iff_eq, List.any_eq_true] at htest
  have h : AnalysisReachable ⟨.ascii⟩ 100 s :=
    Model.ReachableBy.later .start (Model.LaterBy.of_runBy (fun _ _ _ => trivial) hs)
  have hst := (hkept _ _ s 7 r h hr).together.mp htest.2
  rw [htest.1] at hst
  cases hst

end FinanceIntelligence
