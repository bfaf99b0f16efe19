import FinanceIntelligence.EngineSafe

/-!
# Every call keeps the discipline

The claim functions, the clarification service, the router and the save tool;
together with the engine, the soundness of `analysisDiscipline`.

One lemma for each call. It follows the program of the call from one instruction to the next with
the rules of `JobTransaction`, and ends at each commit with the constructor of `JobStep` that the
commit is. This is the module to be done again when one of these calls changes.
-/

namespace FinanceIntelligence

namespace CallsSafe

open AnalysisProg AnalysisEventEngine ClaimAuthority ClarificationService EngineSafe

variable {cfg : EngineConfig} {c : AnalysisCall} {j : Uuid} {m : Option Mark}
  {σ : Cfg Row Stmt Mark AnalysisDb} {r r' : JobRows}

/-- Nothing is asked of what a call returns or raises. -/
abbrev anyway {α : Type} : Post α := fun _ _ => True

/-- Commit after one step of one job. -/
theorem wp_commitOne {Q : Post Unit} {E : Post Exc} (h : Holds (one j r r') m σ)
    (hn : Numbered r'.events) (hs : JobStep cfg c m j r r')
    (hQ : ∀ σ', Holds .none m σ' → Q () σ') : (analysisDiscipline cfg).wp c commit Q E σ := by
  refine wp_commit h (fun i x hx => .inr ?_) hQ
  obtain ⟨rfl, rfl⟩ := Locked.set_none_apply hx
  exact ⟨r, r', rfl, hn, hs⟩

/-- Commit with nothing changed. -/
theorem wp_commitNone {Q : Post Unit} {E : Post Exc} (h : Holds .none m σ)
    (hQ : ∀ σ', Holds .none m σ' → Q () σ') : (analysisDiscipline cfg).wp c commit Q E σ :=
  wp_commit h (fun _ _ hx => by cases hx) hQ

/-- Commit after statements on a job that does not exist. -/
theorem wp_commitMissing {Q : Post Unit} {E : Post Exc} (h : Holds (Locked.none.put j none none) m σ)
    (hQ : ∀ σ', Holds .none m σ' → Q () σ') : (analysisDiscipline cfg).wp c commit Q E σ := by
  refine wp_commit h (fun i x hx => .inl ?_) hQ
  by_cases hij : i = j
  · rw [hij, Locked.put_self] at hx
    rw [← Option.some.inj hx]
  · rw [Locked.put_of_ne _ _ _ hij] at hx
    cases hx

/-- A statement other than an event, on the locked job. -/
theorem wp_statementOne {wr : JobWrite} {Q : Post Unit} (h : Holds (one j r r') m σ)
    (hwr : ¬ ∃ e, wr = .insertEvent e)
    (hQ : wr.check r' = true → ∀ σ', Holds (one j r (wr.apply r')) m σ' → Q () σ') :
    (analysisDiscipline cfg).wp c (execute (.onJob j wr)) Q anyway σ := by
  refine wp_execute h (Locked.set_self ..) (fun _ _ _ => trivial) (fun he => absurd he hwr)
    fun hc σ' h' => hQ hc σ' ?_
  rwa [Locked.set_set] at h'

/-! ## Claiming -/

/-- The rows of a claim query qualify. -/
theorem mem_ordered {q : JobRows → Bool} {key : AnalysisJob → ℕ × ℕ} {d : AnalysisDb} {row : Row}
    (h : row ∈ ordered q key d) : ∃ j r, row = .job j ∧ d.rows j = some r ∧ q r = true := by
  simp only [ordered, List.mem_map] at h
  obtain ⟨⟨j, r⟩, hmem, rfl⟩ := h
  rw [List.mem_insertionSort, List.mem_filter, AnalysisDb.jobs, List.mem_filterMap] at hmem
  obtain ⟨⟨i, -, hi⟩, hq⟩ := hmem
  obtain ⟨r', hr', hir⟩ := Option.map_eq_some_iff.mp hi
  obtain ⟨rfl, rfl⟩ := Prod.mk.inj hir
  exact ⟨i, r', rfl, hr', hq⟩

/-- The claim query locks at most one row, which qualifies. -/
theorem wp_lockNext {α : Type} {q : ℕ → JobRows → Bool} {key : AnalysisJob → ℕ × ℕ}
    {k : List Row → AnalysisProg α} {Q : Post α} {E : Post Exc} (h : Holds .none m σ)
    (hnil : ∀ σ', Holds .none m σ' → (analysisDiscipline cfg).wp c (k []) Q E σ')
    (hcons : ∀ j r now σ', q now r = true → Numbered r.events → Holds (one j r r) m σ' →
      (analysisDiscipline cfg).wp c (k [.job j]) Q E σ') :
    (analysisDiscipline cfg).wp c (.lockSkip (fun d => ordered (q d.now) key d) 1 k) Q E σ := by
  intro d hd l hl hn
  have hview : (analysisModel cfg).schema.view σ.pending d = Locked.none.overlay d :=
    h.view (h.found_of_rely hd)
  rw [hview] at hl
  match l, hl, hn with
  | [], _, _ => exact hnil _ (h.rely hd Set.subset_union_left)
  | [row], hl, _ =>
    obtain ⟨j, r, rfl, hr, hq⟩ := mem_ordered (hl.subset (List.mem_singleton_self row))
    have hr' : d.rows j = some r := hr
    have hlock := h.lock hd (j := j) rfl
      (Set.subset_union_left (t := {x | x ∈ [Row.job j]})) (.inr (by simp))
    rw [hr'] at hlock
    exact hcons j r _ _ hq (hd.inv.numbered j r hr') hlock
  | _ :: _ :: _, _, hn => simp at hn

/-- `claim_next_analysis_job` and its commit. -/
theorem wp_claimNext {w : String} {Q : Post (Option (Uuid × Uuid))} (h : Holds .none none σ)
    (hQ : ∀ x σ', Holds .none none σ' → Q x σ') :
    (analysisDiscipline cfg).wp (.runOnce w) (claimNextAnalysisJob w)
      (fun x => (analysisDiscipline cfg).wp (.runOnce w) commit (fun _ => Q x) anyway) anyway σ := by
  rw [claimNextAnalysisJob]
  split
  · trivial
  · refine wp_lockNext (q := fun _ => claimable) h
      (fun σ' h => wp_commitNone h fun σ' h => hQ _ σ' h) fun j r now σ' hr hn h => ?_
    simp only [Prog.bind_eq, Prog.pure_eq, Discipline.wp_bind]
    refine wp_uuid4 fun token => ?_
    refine wp_select h fun d σ' _ h => ?_
    refine wp_statementOne h (by rintro ⟨e, he⟩; cases he) fun _ σ' h => ?_
    exact wp_commitOne h hn (.claim w token d.now rfl rfl hr rfl) fun σ' h => hQ _ σ' h

/-- `recover_next_stale_analysis_job` and its commit. -/
theorem wp_recoverNext {w : String} {Q : Post (Option (Uuid × Uuid))} (h : Holds .none none σ)
    (hQ : ∀ x σ', Holds .none none σ' → Q x σ') :
    (analysisDiscipline cfg).wp (.runOnce w) (recoverNextStaleAnalysisJob w)
      (fun x => (analysisDiscipline cfg).wp (.runOnce w) commit (fun _ => Q x) anyway) anyway σ := by
  rw [recoverNextStaleAnalysisJob]
  split
  · trivial
  · refine wp_lockNext (q := recoverable) h
      (fun σ' h => wp_commitNone h fun σ' h => hQ _ σ' h) fun j r now σ' hr hn h => ?_
    simp only [Prog.bind_eq, Prog.pure_eq, Discipline.wp_bind]
    refine wp_statementOne h (by rintro ⟨e, he⟩; cases he) fun _ σ' h => ?_
    refine wp_uuid4 fun token => ?_
    refine wp_select h fun d σ' _ h => ?_
    refine wp_statementOne h (by rintro ⟨e, he⟩; cases he) fun _ σ' h => ?_
    exact wp_commitOne h hn (.recover w token d.now rfl rfl ⟨now, hr⟩ ⟨_, rfl⟩ rfl)
      fun σ' h => hQ _ σ' h

/-- A worker's turn. -/
theorem wp_runOnce {w : String} (h : Holds .none none σ) :
    (analysisDiscipline cfg).wp (.runOnce w) (AnalysisWorker.runOnce cfg w) anyway anyway σ := by
  simp only [AnalysisWorker.runOnce, Prog.bind_eq, Prog.pure_eq, Discipline.wp_bind]
  refine wp_claimNext h fun claimed σ' h => ?_
  split
  · exact wp_executeJob h
  · simp only [Discipline.wp_bind]
    refine wp_recoverNext h fun recovered σ' h => ?_
    split
    · exact wp_executeJob h
    · trivial

/-- A heartbeat. -/
theorem wp_renew {token : Uuid} {w : String} (h : Holds .none none σ) :
    (analysisDiscipline cfg).wp (.renewLease j token w) (renewAnalysisJobLease j token w)
      anyway anyway σ := by
  simp only [renewAnalysisJobLease, Prog.bind_eq]
  split
  · simp only [Discipline.wp_bind]
    refine wp_lockJob h rfl (fun σ' h => ?_) fun r σ' hr hn h => ?_
    · exact wp_commitNone h fun _ _ => trivial
    · simp only [if_true, Discipline.wp_bind]
      refine wp_select h fun d σ' _ h => ?_
      refine wp_statementOne h (by rintro ⟨e, he⟩; cases he) fun _ σ' h => ?_
      exact wp_commitOne h hn (.renew token w _ rfl hr rfl) fun _ _ => trivial
  · exact wp_commitNone h fun _ _ => trivial

/-! ## Router and save tool -/

/-- Inserting a job and committing. -/
theorem wp_createJob {id user : Uuid} {prompt : String} {key : Option String}
    {documents : List Uuid} {job : AnalysisJob} (hc : c = .createAnalysis user prompt key documents)
    (hstatus : job.status = .received) (htoken : job.claimToken = none)
    (howner : job.lockedBy = none) (hlease : job.leaseExpiresAt = none)
    (hcount : job.recoveryCount = 0) {d : AnalysisDb} :
    (analysisDiscipline cfg).wp c (execute (.createJob id job))
      (fun _ => (analysisDiscipline cfg).wp c commit anyway anyway) anyway ⟨∅, [], m, d⟩ := by
  intro d₁ hd₁
  refine ⟨fun hcheck d₂ hd₂ => ⟨fun d₃ hd₃ => ?_, fun a ha => ⟨?_, trivial⟩⟩,
    fun _ => ⟨?_, trivial⟩⟩
  · have hnone : d₂.rows id = none := by
      have h₁ : d₂.rows id = d₁.rows id := hd₂.agree (.job id) (.inr (by simp [analysisModel,
        analysisSchema]))
      have h₂ : analysisSchema.check (.createJob id job) d₁ = true := hcheck
      simp only [analysisSchema, Bool.and_eq_true, Option.isNone_iff_eq_none] at h₂
      rw [h₁, h₂.1]
    have happly : d₃ = analysisSchema.apply (.createJob id job) d₂ :=
      analysisSchema.replay_eq_ok hd₃
    have hrows : ∀ i, d₃.rows i = if i = id then some { job } else d₂.rows i := by
      intro i
      rw [happly]
      rfl
    have hfresh : id ∉ d₂.jobIds := fun hid => by simpa [hnone] using hd₂.inv.listed id hid
    refine ⟨fun row hrow => ?_, ⟨?_, fun i hi => ?_, fun i r hr => ?_, fun i r hr => ?_⟩,
      ⟨by rw [happly]; rfl, fun i => ?_⟩, trivial⟩
    · cases row with
      | clarification i cl =>
        intro r hr
        have hi : i ≠ id := by
          rintro rfl
          rw [hnone] at hr
          cases hr
        exact ⟨r, by rw [hrows, if_neg hi, hr], fun x hx _ => hx⟩
      | job i =>
        have hi : i ≠ id := by
          rintro rfl
          exact hrow (.inr (by simp [analysisModel, analysisSchema]))
        change d₃.rows i = d₂.rows i
        rw [hrows, if_neg hi]
    · rw [happly]
      exact List.nodup_append.mpr ⟨hd₂.inv.jobIds, List.nodup_singleton id, fun i hi k hk hik =>
        hfresh (by rwa [← List.mem_singleton.mp hk, ← hik])⟩
    · rw [happly] at hi
      rw [hrows]
      split
      · rfl
      · rename_i hne
        rcases List.mem_append.mp hi with hi | hi
        · exact hd₂.inv.listed i hi
        · exact absurd (List.mem_singleton.mp hi) hne
    · rw [hrows] at hr
      split at hr
      · cases hr
        exact rfl
      · exact hd₂.inv.numbered i r hr
    · rw [hrows] at hr
      split at hr
      · cases hr
        exact Nat.zero_le 1
      · exact hd₂.inv.oneAwaiting i r hr
    · rw [hrows]
      split
      · rename_i hi
        rw [hi, hnone]
        exact .created user prompt key documents job hc ⟨hstatus, htoken, howner, hlease, hcount⟩
      · exact .same _
  · rintro ⟨i, e, rfl⟩
    simp only [List.nil_append, Schema.replay] at ha
    split at ha <;> cases ha
  · rintro ⟨i, e, he⟩
    cases he

/-- `create_analysis`. -/
theorem wp_createAnalysis {user : Uuid} {prompt : String} {key : Option String}
    {documents : List Uuid} {d : AnalysisDb} :
    (analysisDiscipline cfg).wp (.createAnalysis user prompt key documents)
      (AnalysisRouter.createAnalysis user prompt key documents) anyway anyway
      ⟨∅, [], m, d⟩ := by
  simp only [AnalysisRouter.createAnalysis, Prog.bind_eq, Prog.pure_eq, Discipline.wp_bind]
  intro d₁ _
  simp only [Discipline.wp_ret]
  split
  · trivial
  · simp only [Discipline.wp_bind]
    have hvalid : ∀ Q : Post Bool, (∀ b, Q b ⟨∅, [], m, d₁⟩) →
        (analysisDiscipline cfg).wp (.createAnalysis user prompt key documents)
          (AnalysisRouter.validDocuments documents.eraseDups) Q anyway ⟨∅, [], m, d₁⟩ := by
      intro Q hQ
      rw [AnalysisRouter.validDocuments]
      split
      · exact hQ true
      · exact wp_call (fun _ => trivial) hQ
    refine hvalid _ fun valid => ?_
    split
    · trivial
    · simp only [Discipline.wp_bind]
      refine wp_uuid4 fun id => ?_
      exact wp_createJob rfl rfl rfl rfl rfl rfl

/-- `cancel_analysis`. -/
theorem wp_cancelAnalysis {user : Uuid} (h : Holds .none m σ) :
    (analysisDiscipline cfg).wp (.cancelAnalysis j user) (AnalysisRouter.cancelAnalysis j user)
      anyway anyway σ := by
  simp only [AnalysisRouter.cancelAnalysis, Prog.bind_eq, Discipline.wp_bind]
  refine wp_select h fun d σ' _ h => ?_
  split
  · trivial
  · split
    · trivial
    · simp only [Discipline.wp_bind]
      refine wp_validateTransition (fun _ => trivial) fun _ => ?_
      refine wp_execute_unlocked h rfl (fun _ _ _ => trivial) (by rintro ⟨e, he⟩; cases he) rfl
        (fun σ' h => wp_commitMissing h fun _ _ => trivial) fun r σ' _ hn h => ?_
      exact wp_commitOne h hn (.analysisCancelled user rfl rfl) fun _ _ => trivial

/-- `SaveAnalysisTool`. -/
theorem wp_saveAnalysis {summary : String} (h : Holds .none m σ) :
    (analysisDiscipline cfg).wp (.saveAnalysis j summary) (SaveAnalysisTool.execute j summary)
      anyway anyway σ := by
  simp only [SaveAnalysisTool.execute, Prog.bind_eq, Discipline.wp_bind]
  refine wp_select h fun d σ' _ h => ?_
  split
  · trivial
  · simp only [Discipline.wp_bind]
    refine wp_uuid4 fun id => ?_
    refine wp_execute_unlocked h rfl (fun _ _ _ => trivial) (by rintro ⟨e, he⟩; cases he) rfl
      (fun σ' h => wp_execute_missing h (Locked.put_self ..) fun σ' h =>
        wp_commitMissing h fun _ _ => trivial) fun r σ' _ hn h => ?_
    refine wp_statementOne h (by rintro ⟨e, he⟩; cases he) fun hnew σ' h => ?_
    have hold : r.snapshots = [] := by simpa [JobWrite.check, JobWrite.apply] using hnew
    refine wp_commitOne h hn (.saved summary id rfl hold ?_) fun _ _ => trivial
    simp [JobWrite.apply, hold]

/-! ## Clarifications -/

/-- Locking the job of a clarification. -/
theorem wp_lockJobRows {Q : Post JobRows} (h : Holds .none m σ)
    (hQ : ∀ r σ', Numbered r.events → Holds (one j r r) m σ' → Q r σ') :
    (analysisDiscipline cfg).wp c (lockJobRows j) Q anyway σ := by
  simp only [lockJobRows, Prog.bind_eq, Prog.pure_eq, Discipline.wp_bind]
  refine wp_lockJob h rfl (fun _ _ => trivial) fun r σ' _ hn h => ?_
  simp only [if_true, Discipline.wp_bind]
  refine wp_select h fun d σ' hd h => ?_
  rw [show d.rows j = some r from hd j _ (Locked.set_self ..)]
  exact hQ r σ' hn h

/-- Locking the clarification, its job being locked. -/
theorem wp_lockClar {cl : Uuid} {Q : Post AnalysisClarification} (h : Holds (one j r r') m σ)
    (hQ : ∀ clar σ', clar ∈ r'.clarifications → clar.id = cl → Holds (one j r r') m σ' →
      Q clar σ') :
    (analysisDiscipline cfg).wp c (lockClarification j cl) Q anyway σ := by
  rw [lockClarification]
  refine wp_lockClarification h fun b σ' h => ?_
  cases b with
  | true =>
    simp only [if_true, Prog.bind_eq, Prog.pure_eq, Discipline.wp_bind]
    refine wp_select h fun d σ' hd h => ?_
    rw [show d.rows j = some r' from hd j _ (Locked.set_self ..), Option.bind_some]
    split
    · rename_i clar hclar
      exact hQ clar σ' (List.mem_of_find?_eq_some hclar) (by simpa using List.find?_some hclar) h
    · trivial
  | false => trivial

/-- An update that the trigger has let through. -/
theorem settles_of_check {cl : Uuid} {st : ClarificationStatus}
    {set : AnalysisClarification → AnalysisClarification}
    (hc : (JobWrite.updateClarification cl set).check r = true)
    (hset : ∀ x, (set x).id = x.id ∧ (set x).status = st)
    (hmem : ∃ x ∈ r.clarifications, x.id = cl)
    (hclars : r'.clarifications =
      ((JobWrite.updateClarification cl set).apply r).clarifications) : Settles cl st r r' := by
  refine ⟨hmem, fun x hx hid => ?_, set, hset, hclars⟩
  simp only [JobWrite.check, List.all_eq_true, Bool.or_eq_true, bne_iff_ne, beq_iff_eq] at hc
  rcases hc x hx with (hne | hawaiting) | hsame
  · exact absurd hid hne
  · exact .inl hawaiting
  · exact .inr (by rw [← hsame, (hset x).2])

/-- `respond`. -/
theorem wp_respond {cl user : Uuid} {payload : List (String × String)} (h : Holds .none m σ) :
    (analysisDiscipline cfg).wp (.respond j cl user payload) (respond j cl user payload)
      anyway anyway σ := by
  simp only [respond, setStatus, Prog.bind_eq, Discipline.wp_bind]
  refine wp_lockJobRows h fun r σ' hn h => ?_
  split
  · trivial
  · split
    · trivial
    · rename_i hstatus
      have hr : r.job.status = .needsClarification := not_not.mp hstatus
      simp only [Discipline.wp_bind]
      refine wp_lockClar h fun clar σ' hmem hid h => ?_
      split
      · trivial
      · trivial
      · trivial
      · rename_i hawaiting
        have hopen : Awaits cl r := ⟨clar, hmem, hid, hawaiting⟩
        simp only [Discipline.wp_bind]
        refine wp_select h fun d σ' _ h => ?_
        split
        · simp only [Discipline.wp_bind]
          refine wp_statementOne h (by rintro ⟨e, he⟩; cases he) fun hc σ' h => ?_
          refine wp_statementOne h (by rintro ⟨e, he⟩; cases he) fun _ σ' h => ?_
          exact wp_commitOne h hn (.answerExpired cl user payload rfl hr rfl rfl rfl
            (settles_of_check hc (fun _ => ⟨rfl, rfl⟩) ⟨clar, hmem, hid⟩ rfl) hopen rfl)
            fun _ _ => trivial
        · simp only [Discipline.wp_bind]
          refine wp_call (fun _ => trivial) fun valid => ?_
          split
          · trivial
          · simp only [Discipline.wp_bind]
            refine wp_statementOne h (by rintro ⟨e, he⟩; cases he) fun hc σ' h => ?_
            refine wp_uuid4 fun id => ?_
            refine wp_statementOne h (by rintro ⟨e, he⟩; cases he) fun _ σ' h => ?_
            refine wp_statementOne h (by rintro ⟨e, he⟩; cases he) fun _ σ' h => ?_
            refine wp_validateTransition (fun _ => trivial) fun _ => ?_
            refine wp_statementOne h (by rintro ⟨e, he⟩; cases he) fun _ σ' h => ?_
            refine wp_emitEvent h (Locked.set_self ..) hn (fun _ _ _ => trivial)
              fun e σ' he htype h => ?_
            rw [Locked.set_set] at h
            refine wp_emitEvent h (Locked.set_self ..) (hn.append he) (fun _ _ _ => trivial)
              fun e' σ' he' htype' h => ?_
            rw [Locked.set_set] at h
            exact wp_commitOne h ((hn.append he).append he') (.answered cl user payload rfl hr rfl
              (((Quiet.refl r.events).emit (htype ▸ rfl)).emit (htype' ▸ rfl)) rfl
              (settles_of_check hc (fun _ => ⟨rfl, rfl⟩) ⟨clar, hmem, hid⟩ rfl) hopen
              ⟨id, clar, hmem, hid, hawaiting, rfl⟩) fun _ _ => trivial

/-- `cancel`. -/
theorem wp_cancelClarification {cl user : Uuid} (h : Holds .none m σ) :
    (analysisDiscipline cfg).wp (.cancelClarification j cl user) (cancel j cl user)
      anyway anyway σ := by
  simp only [cancel, setStatus, Prog.bind_eq, Discipline.wp_bind]
  refine wp_lockJobRows h fun r σ' hn h => ?_
  split
  · trivial
  · simp only [Discipline.wp_bind]
    refine wp_lockClar h fun clar σ' hmem hid h => ?_
    refine wp_select h fun d σ' _ h => ?_
    refine wp_validateTransition (fun _ => trivial) fun hv => ?_
    refine wp_statementOne h (by rintro ⟨e, he⟩; cases he) fun hc σ' h => ?_
    refine wp_statementOne h (by rintro ⟨e, he⟩; cases he) fun _ σ' h => ?_
    exact wp_commitOne h hn (.clarificationCancelled cl user rfl
      (AnalysisJobStatus.validateTransition_isTerminal hv) rfl rfl rfl
      (settles_of_check hc (fun _ => ⟨rfl, rfl⟩) ⟨clar, hmem, hid⟩ rfl) rfl) fun _ _ => trivial

/-! ## Expiry -/

/-- What a batch of expiries does to a job. -/
structure Expiring (r r' : JobRows) : Prop where
  /-- the job expires, or had ended -/
  job : r.job.status = .needsClarification ∧ r'.job = { r.job with status := .expired } ∨
    r.job.status.isTerminal = true ∧ r'.job = r.job
  /-- it is announced -/
  events : Announces .clarificationExpired r.events r'.events
  /-- nothing is published -/
  snapshots : r'.snapshots = r.snapshots
  /-- a clarification that waited expires -/
  clarification : ∃ cl, Settles cl .expired r r' ∧ Awaits cl r
  /-- the attempts stay -/
  attempts : r'.attempts = r.attempts

/-- Every locked job expires. -/
def Batch (f : Locked) : Prop := ∀ j x, f j = some x →
  ∃ r r', x = (some r, some r') ∧ Numbered r'.events ∧ Expiring r r'

theorem Batch.set {f : Locked} (hf : Batch f) (hn : Numbered r'.events) (hr : Expiring r r') :
    Batch (f.set j r r') := by
  intro i x hi
  by_cases hij : i = j
  · rw [hij, Locked.set_self] at hi
    exact ⟨r, r', (Option.some.inj hi).symm, hn, hr⟩
  · rw [Locked.set, Locked.put_of_ne _ _ _ hij] at hi
    exact hf i x hi

/-- One round, the job being locked and its clarification waiting. -/
theorem wp_expireLocked {cl : Uuid} {f : Locked} {Q : Post Unit} (h : Holds (f.set j r r) m σ)
    (hf : Batch f) (hn : Numbered r.events) (hopen : Awaits cl r)
    (hQ : ∀ r' σ', Batch (f.set j r r') → Holds (f.set j r r') m σ' → Q () σ') :
    (analysisDiscipline cfg).wp c (expireLocked j cl) Q anyway σ := by
  simp only [expireLocked, Prog.bind_eq, Discipline.wp_bind]
  refine wp_select h fun d σ' hd h => ?_
  rw [show d.rows j = some r from hd j _ (Locked.set_self ..)]
  refine wp_execute h (Locked.set_self ..) (fun _ _ _ => trivial) (by rintro ⟨e, he⟩; cases he)
    fun hc σ' h => ?_
  rw [Locked.set_set] at h
  -- the announcement, the job row being as the round leaves it
  have hemit : ∀ job σ', (r.job.status = .needsClarification ∧
        job = { r.job with status := .expired } ∨ r.job.status.isTerminal = true ∧ job = r.job) →
      Holds (f.set j r { (JobWrite.updateClarification cl fun x =>
        { x with status := .expired }).apply r with job := job }) m σ' →
      (analysisDiscipline cfg).wp c (emitEvent j .clarificationExpired
        [("analysisId", .uuid j), ("clarificationId", .uuid cl),
          ("contractVersion", .text "3.0.0")]) Q anyway σ' := by
    intro job σ' hjob h
    refine wp_emitEvent h (Locked.set_self ..) hn (fun _ _ _ => trivial) fun e σ' he htype h => ?_
    rw [Locked.set_set] at h
    have hannounced : Announces .clarificationExpired r.events (r.events ++ [e]) :=
      htype ▸ (Quiet.refl r.events).announce
    have hmem : ∃ x ∈ r.clarifications, x.id = cl := by
      obtain ⟨x, hx, hid, -⟩ := hopen
      exact ⟨x, hx, hid⟩
    refine hQ _ σ' (hf.set (hn.append he) ?_) h
    exact ⟨hjob, hannounced, rfl,
      ⟨cl, settles_of_check hc (fun _ => ⟨rfl, rfl⟩) hmem rfl, hopen⟩, rfl⟩
  simp only [Option.map_some, Option.getD_some, expireJob]
  split
  · rename_i hterm
    exact hemit r.job σ' (.inr ⟨hterm, rfl⟩) h
  · simp only [setStatus, Prog.bind_eq, Discipline.wp_bind]
    refine wp_validateTransition (fun _ => trivial) fun hv => ?_
    have hneeds := AnalysisJobStatus.validateTransition_expired.mp hv
    refine wp_execute h (Locked.set_self ..) (fun _ _ _ => trivial) (by rintro ⟨e, he⟩; cases he)
      fun _ σ' h => ?_
    rw [Locked.set_set] at h
    exact hemit _ σ' (.inl ⟨hneeds, rfl⟩) h

/-- The row is a clarification that waits, and its lock is held. -/
def Due (σ : Cfg Row Stmt Mark AnalysisDb) (row : Row) : Prop :=
  ∃ j cl r, row = .clarification j cl ∧ row ∈ σ.held ∧ σ.db.rows j = some r ∧ Awaits cl r

/-- The lock keeps the clarification waiting. -/
theorem Due.follows {σ σ' : Cfg Row Stmt Mark AnalysisDb} {row : Row} (h : Due σ row)
    (hσ : (analysisDiscipline cfg).follows σ σ') : Due σ' row := by
  obtain ⟨j, cl, r, rfl, hheld, hr, x, hx, hid, hst⟩ := h
  obtain ⟨r', hr', hkeep⟩ := hσ.agree _ hheld r hr
  exact ⟨j, cl, r', rfl, hσ.held hheld, hr', x, hkeep x hx hid, hid, hst⟩

/-- The job of a row. -/
def jobOf : Row → Uuid
  | .job j => j
  | .clarification j _ => j

/-- The due clarifications wait. -/
theorem mem_dueClarifications {d : AnalysisDb} {row : Row} (h : row ∈ dueClarifications d) :
    ∃ j cl r, row = .clarification j cl ∧ d.rows j = some r ∧ Awaits cl r := by
  obtain ⟨⟨j, r⟩, hjob, hrow⟩ := List.mem_flatMap.mp h
  obtain ⟨i, -, hi⟩ := List.mem_filterMap.mp hjob
  obtain ⟨r', hr', hij⟩ := Option.map_eq_some_iff.mp hi
  obtain ⟨rfl, rfl⟩ := Prod.mk.inj hij
  obtain ⟨x, hx, hsome⟩ := List.mem_filterMap.mp hrow
  split at hsome
  · rename_i hdue
    exact ⟨i, x.id, r', (Option.some.inj hsome).symm, hr', x, hx, rfl, hdue.1⟩
  · cases hsome

/-- The due clarifications are of different jobs. -/
theorem dueClarifications_distinct {d : AnalysisDb} (h : AnalysisInv d) :
    (dueClarifications d).Pairwise fun a b => jobOf a ≠ jobOf b := by
  rw [dueClarifications, List.pairwise_flatMap]
  refine ⟨fun ⟨j, r⟩ hjob => ?_, ?_⟩
  · obtain ⟨i, -, hi⟩ := List.mem_filterMap.mp hjob
    obtain ⟨r', hr', hij⟩ := Option.map_eq_some_iff.mp hi
    obtain ⟨rfl, rfl⟩ := Prod.mk.inj hij
    -- the job has one clarification that waits, so the list is not longer
    have hlength : ∀ l : List Row, l.length ≤ 1 → l.Pairwise fun a b => jobOf a ≠ jobOf b := by
      intro l hl
      match l, hl with
      | [], _ => exact .nil
      | [a], _ => exact List.pairwise_singleton _ a
    refine hlength _ (Nat.le_trans ?_ (h.oneAwaiting i r' hr'))
    rw [List.length_filterMap_eq_countP]
    refine List.countP_mono_left fun x _ hx => ?_
    split at hx
    · rename_i hdue
      simpa using hdue.1
    · cases hx
  · rw [AnalysisDb.jobs, List.pairwise_filterMap]
    refine h.jobIds.imp fun {i k} hik => ?_
    rintro ⟨j, r⟩ hj ⟨j', r'⟩ hj' row hrow row' hrow'
    obtain ⟨_, -, hjr⟩ := Option.map_eq_some_iff.mp hj
    obtain ⟨_, -, hjr'⟩ := Option.map_eq_some_iff.mp hj'
    obtain ⟨rfl, -⟩ := Prod.mk.inj hjr
    obtain ⟨rfl, -⟩ := Prod.mk.inj hjr'
    have hof : ∀ (k : Uuid) (l : List AnalysisClarification) (row : Row),
        row ∈ l.filterMap (fun c => if c.status = .awaiting ∧ c.expiresAt.any (· ≤ d.now) then
          some (.clarification k c.id) else none) → jobOf row = k := by
      intro k l row hrow
      obtain ⟨x, -, hsome⟩ := List.mem_filterMap.mp hrow
      split at hsome
      · rw [← Option.some.inj hsome]
        rfl
      · cases hsome
    rw [hof _ _ _ hrow, hof _ _ _ hrow']
    exact hik

theorem stays_lockJob (q : JobRows → Bool) : (lockJob j q).Stays := fun _ => trivial

theorem stays_select : select.Stays := fun _ => trivial

theorem stays_execute (s : Stmt) : (execute s).Stays := by
  intro b
  cases b <;> trivial

theorem stays_emitEvent (eventType : EventType) (payload : Payload) (attemptId : Option Uuid) :
    (emitEvent j eventType payload attemptId).Stays := by
  rw [emitEvent]
  split
  · trivial
  · exact fun _ => stays_execute _

theorem stays_validateTransition {current new : AnalysisJobStatus} :
    (AnalysisProg.validateTransition current new).Stays := by
  rw [AnalysisProg.validateTransition]
  split <;> trivial

theorem stays_expireJob (status : AnalysisJobStatus) : (expireJob j status).Stays := by
  rw [expireJob]
  split
  · trivial
  · exact Prog.Stays.bind stays_validateTransition fun _ => stays_execute _

theorem stays_expireLocked (cl : Uuid) : (expireLocked j cl).Stays := by
  refine Prog.Stays.bind stays_select fun d => ?_
  refine Prog.Stays.bind (stays_execute _) fun _ => ?_
  exact Prog.Stays.bind (stays_expireJob _) fun _ => stays_emitEvent _ _ _

theorem stays_expireClarification (cl : Uuid) : (expireClarification j cl).Stays := by
  refine Prog.Stays.bind (stays_lockJob _) fun b => ?_
  cases b with
  | false => trivial
  | true => exact stays_expireLocked cl

/-- One round. -/
theorem wp_expireClarification {cl : Uuid} {f : Locked} (h : Holds f m σ) (hf : Batch f)
    (hj : f j = none) (hdue : Due σ (.clarification j cl)) :
    (analysisDiscipline cfg).wp c (expireClarification j cl)
      (fun _ σ' => ∃ f', Batch f' ∧ Holds f' m σ' ∧ ∀ i ≠ j, f' i = f i) anyway σ := by
  simp only [expireClarification, Prog.bind_eq, Prog.pure_eq, Discipline.wp_bind]
  have hlock : (analysisDiscipline cfg).wp c (lockJob j fun _ => true)
      (fun b σ' => if b then ∃ r, Numbered r.events ∧ Holds (f.set j r r) m σ' else Holds f m σ')
      anyway σ :=
    wp_lockJob h hj (fun σ' h => h) fun r σ' _ hn h => ⟨r, hn, h⟩
  refine Discipline.wp_mono ?_ (fun _ _ h => h)
    (Discipline.wp_frame (stays_lockJob _) (Discipline.follows_refl σ) hlock)
  rintro b σ' ⟨hb, hσ'⟩
  cases b with
  | false => exact ⟨f, hf, hb, fun _ _ => rfl⟩
  | true =>
    obtain ⟨r, hn, h⟩ := hb
    obtain ⟨_, _, r', hrow, -, hr', hopen⟩ := hdue.follows hσ'
    obtain ⟨rfl, rfl⟩ := Row.clarification.inj hrow
    have hr : σ'.db.rows j = some r := h.found j _ (Locked.set_self ..)
    obtain rfl := Option.some.inj (hr.symm.trans hr')
    exact wp_expireLocked h hf hn hopen fun r' σ'' hf' h' =>
      ⟨_, hf', h', fun i hi => Locked.put_of_ne f _ _ hi⟩

/-- The rounds of a batch, by induction on it: what is left is still due, and of
other jobs. -/
theorem wp_expireClarifications {l : List Row} {f : Locked} {Q : Post Unit} (h : Holds f m σ)
    (hf : Batch f) (hdue : ∀ row ∈ l, Due σ row)
    (hdistinct : l.Pairwise fun a b => jobOf a ≠ jobOf b) (hfree : ∀ row ∈ l, f (jobOf row) = none)
    (hQ : ∀ f σ', Batch f → Holds f m σ' → Q () σ') :
    (analysisDiscipline cfg).wp c (expireClarifications l) Q anyway σ := by
  induction l generalizing f σ with
  | nil => exact hQ f σ hf h
  | cons row l ih =>
    obtain ⟨hne, hrest⟩ := List.pairwise_cons.mp hdistinct
    cases row with
    | job j =>
      exact ih h hf (fun row hrow => hdue row (List.mem_cons_of_mem _ hrow)) hrest
        fun row hrow => hfree row (List.mem_cons_of_mem _ hrow)
    | clarification j cl =>
      simp only [expireClarifications, Prog.bind_eq, Discipline.wp_bind]
      refine Discipline.wp_mono ?_ (fun _ _ h => h)
        (Discipline.wp_frame (stays_expireClarification cl) (Discipline.follows_refl σ)
          (wp_expireClarification h hf (hfree _ List.mem_cons_self) (hdue _ List.mem_cons_self)))
      rintro _ σ' ⟨⟨f', hf', h', hother⟩, hσ'⟩
      refine ih h' hf' (fun row hrow => (hdue row (List.mem_cons_of_mem _ hrow)).follows hσ')
        hrest fun row hrow => ?_
      rw [hother _ (Ne.symm (hne row hrow))]
      exact hfree row (List.mem_cons_of_mem _ hrow)

/-- `expire_due_clarifications`. -/
theorem wp_expireDue {n : ℕ} (h : Holds .none m σ) :
    (analysisDiscipline cfg).wp (.expireDueClarifications n) (expireDueClarifications n)
      anyway anyway σ := by
  intro d hd l hl _
  have hview : (analysisModel cfg).schema.view σ.pending d = Locked.none.overlay d :=
    h.view (h.found_of_rely hd)
  have hl : List.Sublist l (dueClarifications d) := by
    rw [hview] at hl
    exact hl
  simp only [Prog.bind_eq, Prog.pure_eq, Discipline.wp_bind]
  refine wp_expireClarifications (h.rely hd Set.subset_union_left) (fun _ _ hx => by cases hx)
    (fun row hrow => ?_) ((dueClarifications_distinct hd.inv).sublist hl) (fun _ _ => rfl)
    fun f σ' hf h => ?_
  · obtain ⟨j, cl, r, rfl, hr, hopen⟩ := mem_dueClarifications (hl.subset hrow)
    exact ⟨j, cl, r, rfl, .inr hrow, hr, hopen⟩
  · split
    · refine wp_commit h (fun i x hx => .inr ?_) fun _ _ => trivial
      obtain ⟨r, r', rfl, hn, hr⟩ := hf i x hx
      exact ⟨r, r', rfl, hn, .clarificationExpired n rfl hr.job hr.events hr.snapshots
        hr.clarification hr.attempts⟩
    · trivial

end CallsSafe

open CallsSafe EngineSafe in
/-- **Soundness of the discipline**: every call keeps it. -/
theorem analysisDiscipline_sound (cfg : EngineConfig) : (analysisDiscipline cfg).Sound where
  body c d _ := by
    have h : Holds .none none (⟨∅, [], none, d⟩ : Cfg Row Stmt Mark AnalysisDb) := .idle none d
    cases c with
    | createAnalysis user prompt key documents => exact wp_createAnalysis
    | cancelAnalysis j user => exact wp_cancelAnalysis h
    | saveAnalysis j summary => exact wp_saveAnalysis h
    | runOnce w => exact wp_runOnce h
    | executeJob classification j token w => exact wp_executeJob h
    | renewLease j token w => exact wp_renew h
    | respond j cl user payload => exact wp_respond h
    | cancelClarification j cl user => exact wp_cancelClarification h
    | expireDueClarifications n => exact wp_expireDue h
  env_inv _ _ h := ⟨h.jobIds, h.listed, h.numbered, h.oneAwaiting⟩
  env_evolves _ _ _ hj := hj
  env_agree _ r d := by
    cases r with
    | job j => rfl
    | clarification j cl => exact KeepsClarification.refl j cl d

end FinanceIntelligence
