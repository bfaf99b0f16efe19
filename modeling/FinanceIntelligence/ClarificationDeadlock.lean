import FinanceIntelligence.ClarificationLifecycle
import FinanceIntelligence.LockOrder

/-!
# Deadlocks of the clarification operations

`respond` and `cancel` lock the row of the job and then that of the
clarification; a batch of `expire_due_clarifications` locks clarifications and
then the row of each job. Two batches never wait for each other, nor do two
answers: a cycle is a batch that holds a clarification while an answer to it
holds its job. In a run in which the two never cross like this there is none.

* `clarifications_notDeadlocked` — **no deadlock** in such a run.
-/

namespace FinanceIntelligence

open AnalysisProg ClarificationService CallsSafe

/-! ## The rules of waiting -/

/-- The call goes on to lock the clarification `cl` of the job `j` once it has
found these rows there. -/
def AnalysisCall.Answers (c : AnalysisCall) (j cl : Uuid) (r : JobRows) : Prop :=
  (∃ payload, c = .respond j cl r.job.userId payload ∧ r.job.status = .needsClarification) ∨
    c = .cancelClarification j cl r.job.userId

/-- A call that answers or cancels the clarification `cl` waits for the job first,
and then for the clarification. -/
def AnswerWaits (c : AnalysisCall) (j cl : Uuid) (σ : Cfg Row Stmt Mark AnalysisDb) (row : Row) :
    Prop :=
  row = .job j ∧ σ.held = ∅ ∨
    row = .clarification j cl ∧ σ.held = {.job j} ∧
      ∃ r, σ.db.rows j = some r ∧ c.Answers j cl r

/-- Rows that a batch holds: clarifications that wait, and jobs of some of them. -/
structure BatchHolds (σ : Cfg Row Stmt Mark AnalysisDb) : Prop where
  /-- a job of a clarification -/
  jobs : ∀ j, Row.job j ∈ σ.held → ∃ cl, Row.clarification j cl ∈ σ.held
  /-- a clarification that waits -/
  clarifications : ∀ j cl, Row.clarification j cl ∈ σ.held → Due σ (.clarification j cl)

/-- A batch waits for the jobs of clarifications that it holds. -/
def BatchWaits (σ : Cfg Row Stmt Mark AnalysisDb) (row : Row) : Prop :=
  BatchHolds σ ∧ ∃ j cl, row = .job j ∧ Row.clarification j cl ∈ σ.held

/-- What a clarification operation knows when it has to wait for a row. -/
def waitRule : AnalysisCall → Cfg Row Stmt Mark AnalysisDb → Row → Prop
  | .respond j cl user payload => AnswerWaits (.respond j cl user payload) j cl
  | .cancelClarification j cl user => AnswerWaits (.cancelClarification j cl user) j cl
  | .expireDueClarifications _ => BatchWaits
  | _ => fun _ _ => True

section Obeys

variable {cfg : EngineConfig} {W : Cfg Row Stmt Mark AnalysisDb → Row → Prop} {H : Set Row}
  {σ : Cfg Row Stmt Mark AnalysisDb} {j cl : Uuid} {m : Option Mark}

/-- Nothing is asked of what the programs return. -/
abbrev ObeysAll (cfg : EngineConfig) (W : Cfg Row Stmt Mark AnalysisDb → Row → Prop)
    (p : AnalysisProg Unit) (σ : Cfg Row Stmt Mark AnalysisDb) : Prop :=
  (analysisDiscipline cfg).obeys W p (fun _ _ => True) σ

theorem within_select : select.Within analysisSchema H := fun _ => trivial

theorem within_commit : commit.Within analysisSchema H := by
  intro e
  cases e <;> trivial

theorem within_execute {s : Stmt} (hs : ∀ r ∈ (analysisSchema.target s).toList, r ∈ H) :
    (execute s).Within analysisSchema H := by
  refine ⟨hs, fun b => ?_⟩
  cases b <;> trivial

theorem within_validateTransition {current new : AnalysisJobStatus} :
    (AnalysisProg.validateTransition current new).Within analysisSchema H := by
  rw [AnalysisProg.validateTransition]
  split <;> trivial

theorem within_emitEvent {eventType : EventType} {payload : Payload} {attemptId : Option Uuid}
    (hj : Row.job j ∈ H) :
    (AnalysisEventEngine.emitEvent j eventType payload attemptId).Within analysisSchema H := by
  rw [AnalysisEventEngine.emitEvent]
  split
  · trivial
  · exact fun _ => within_execute (by simpa [analysisSchema] using hj)

theorem within_call {α : Type} {g : Answer → α} : (call g).Within analysisSchema H := by
  rintro ⟨_, error, _, _, _, _, _⟩
  cases error <;> trivial

theorem within_uuid4 : uuid4.Within analysisSchema H := fun _ => trivial

theorem stays_uuid4 : uuid4.Stays := fun _ => trivial

theorem stays_call {α : Type} {g : Answer → α} : (call g).Stays := by
  rintro ⟨_, error, _, _, _, _, _⟩
  cases error <;> trivial

/-- The rows of an answer. -/
def answerRows (j cl : Uuid) : Set Row := {.job j, .clarification j cl}

theorem within_onJob {w : JobWrite}
    (hw : analysisSchema.target (.onJob j w) = some (.job j) ∨
      analysisSchema.target (.onJob j w) = some (.clarification j cl)) :
    (execute (.onJob j w)).Within analysisSchema (answerRows j cl) := by
  refine within_execute fun r hr => ?_
  rw [Option.mem_toList] at hr
  rcases hw with hw | hw
  · exact .inl (Option.some.inj (hr.symm.trans hw))
  · exact .inr (Option.some.inj (hr.symm.trans hw))

/-- Locking the job first: nothing is held by then. -/
theorem obeys_lockJobRows {c : AnalysisCall} {Q : Post JobRows} (hheld : σ.held = ∅)
    (hpending : σ.pending = [])
    (hQ : ∀ r σ', σ'.held = {.job j} → σ'.db.rows j = some r → Q r σ') :
    (analysisDiscipline cfg).obeys (AnswerWaits c j cl) (lockJobRows j) Q σ := by
  intro d _
  refine ⟨fun _ => .inl ⟨rfl, hheld⟩, fun d' _ => ?_, trivial⟩
  have hview : (analysisModel cfg).schema.view σ.pending d' = d' := by
    rw [hpending]
    rfl
  dsimp only [Prog.bind]
  rw [hview]
  split
  · rename_i r hr
    exact hQ r _ (by rw [hheld, insert_empty_eq]) hr
  · trivial

/-- Locking the clarification next: the job is held, and its rows have passed the
checks. -/
theorem obeys_lockClarification {c : AnalysisCall} {f : AnalysisClarification → AnalysisProg Unit}
    {r : JobRows} (hheld : σ.held = {.job j}) (hr : σ.db.rows j = some r) (hc : c.Answers j cl r)
    (hf : ∀ clar, (f clar).Within analysisSchema (answerRows j cl)) :
    ObeysAll cfg (AnswerWaits c j cl) ((lockClarification j cl).bind f) σ := by
  intro d hd
  have hrows : d.rows j = σ.db.rows j :=
    hd.agree (.job j) (hheld ▸ Set.mem_singleton (Row.job j))
  refine ⟨fun _ => .inr ⟨rfl, hheld, r, hrows.trans hr, hc⟩, ?_, trivial⟩
  refine Discipline.obeys_of_within (H := answerRows j cl) (fun d' => ?_) ?_
  · dsimp only [Prog.bind]
    split
    · exact hf _
    · trivial
  · rw [hheld]
    exact (Set.pair_comm _ _).le

/-- `respond` obeys the rule. -/
theorem obeys_respond {user : Uuid} {payload : List (String × String)} (hheld : σ.held = ∅)
    (hpending : σ.pending = []) :
    ObeysAll cfg (AnswerWaits (.respond j cl user payload) j cl) (respond j cl user payload) σ := by
  have hj : Row.job j ∈ answerRows j cl := .inl rfl
  rw [ObeysAll, respond, Prog.bind_eq, Discipline.obeys_bind]
  refine obeys_lockJobRows hheld hpending fun r σ' hheld' hr => ?_
  split
  · trivial
  · rename_i huser
    obtain rfl := not_not.mp huser
    split
    · trivial
    · rename_i hstatus
      refine obeys_lockClarification hheld' hr (.inl ⟨payload, rfl, not_not.mp hstatus⟩)
        fun clar => ?_
      split
      · trivial
      · trivial
      · trivial
      · simp only [setStatus, Prog.bind_eq]
        refine Prog.Within.bind within_select stays_select fun d => ?_
        split
        · refine Prog.Within.bind (within_onJob (.inr rfl)) (stays_execute _) fun _ => ?_
          refine Prog.Within.bind (within_onJob (.inl rfl)) (stays_execute _) fun _ e => ?_
          cases e <;> trivial
        · refine Prog.Within.bind within_call stays_call fun valid => ?_
          split
          · trivial
          · refine Prog.Within.bind (within_onJob (.inr rfl)) (stays_execute _) fun _ => ?_
            refine Prog.Within.bind within_uuid4 stays_uuid4 fun id => ?_
            refine Prog.Within.bind (within_onJob (.inl rfl)) (stays_execute _) fun _ => ?_
            refine Prog.Within.bind (within_onJob (.inl rfl)) (stays_execute _) fun _ => ?_
            refine Prog.Within.bind within_validateTransition stays_validateTransition fun _ => ?_
            refine Prog.Within.bind (within_onJob (.inl rfl)) (stays_execute _) fun _ => ?_
            refine Prog.Within.bind (within_emitEvent hj) (stays_emitEvent _ _ _) fun _ => ?_
            -- the length of the payload does not matter
            generalize PayloadValue.number (clar.attemptNumber + 1) = attempt
            exact Prog.Within.bind (within_emitEvent hj) (stays_emitEvent _ _ _) fun _ =>
              within_commit

/-- `cancel` obeys the rule. -/
theorem obeys_cancel {user : Uuid} (hheld : σ.held = ∅) (hpending : σ.pending = []) :
    ObeysAll cfg (AnswerWaits (.cancelClarification j cl user) j cl) (cancel j cl user) σ := by
  rw [ObeysAll, cancel, Prog.bind_eq, Discipline.obeys_bind]
  refine obeys_lockJobRows hheld hpending fun r σ' hheld' hr => ?_
  split
  · trivial
  · rename_i huser
    obtain rfl := not_not.mp huser
    refine obeys_lockClarification hheld' hr (.inr rfl) fun clar => ?_
    refine Prog.Within.bind within_select stays_select fun d => ?_
    refine Prog.Within.bind within_validateTransition stays_validateTransition fun _ => ?_
    refine Prog.Within.bind (within_onJob (.inr rfl)) (stays_execute _) fun _ => ?_
    exact Prog.Within.bind (within_onJob (.inl rfl)) (stays_execute _) fun _ => within_commit

/-- What a batch holds stays as long as its transaction goes on. -/
theorem BatchHolds.follows {σ' : Cfg Row Stmt Mark AnalysisDb} (h : BatchHolds σ)
    (hσ : (analysisDiscipline cfg).follows σ σ') (hheld : σ'.held = σ.held) : BatchHolds σ' where
  jobs i hi := by
    rw [hheld] at hi ⊢
    exact h.jobs i hi
  clarifications i c hc := (h.clarifications i c (hheld ▸ hc)).follows hσ

/-- A batch that locks the job of one of its clarifications. -/
theorem BatchHolds.insert (h : BatchHolds σ) (hcl : Row.clarification j cl ∈ σ.held) :
    BatchHolds { σ with held := insert (.job j) σ.held } where
  jobs i hi := by
    rcases hi with hi | hi
    · obtain rfl := Row.job.inj hi
      exact ⟨cl, .inr hcl⟩
    · obtain ⟨c, hc⟩ := h.jobs i hi
      exact ⟨c, .inr hc⟩
  clarifications i c hc := by
    rcases hc with hc | hc
    · cases hc
    · obtain ⟨i', c', r, hrow, -, hr, hopen⟩ := h.clarifications i c hc
      exact ⟨i', c', r, hrow, .inr hc, hr, hopen⟩

theorem within_expireJob {status : AnalysisJobStatus} (hj : Row.job j ∈ H) :
    (expireJob j status).Within analysisSchema H := by
  rw [expireJob]
  split
  · trivial
  · refine Prog.Within.bind within_validateTransition stays_validateTransition fun _ => ?_
    exact within_execute (by simpa [analysisSchema] using hj)

/-- A round of a batch, the job being locked, locks the clarification. -/
theorem within_expireLocked : (expireLocked j cl).Within analysisSchema (answerRows j cl) := by
  have hj : Row.job j ∈ answerRows j cl := .inl rfl
  simp only [expireLocked, Prog.bind_eq]
  refine Prog.Within.bind within_select stays_select fun d => ?_
  refine Prog.Within.bind (within_onJob (.inr rfl)) (stays_execute _) fun _ => ?_
  exact Prog.Within.bind (within_expireJob hj) (stays_expireJob _) fun _ => within_emitEvent hj

/-- One round obeys the rule: it waits for the job of a clarification that the
batch holds. -/
theorem obeys_expireClarification (h : BatchHolds σ) (hcl : Row.clarification j cl ∈ σ.held) :
    (analysisDiscipline cfg).obeys BatchWaits (expireClarification j cl)
      (fun _ σ' => BatchHolds σ' ∧ σ.held ⊆ σ'.held) σ := by
  intro d hd
  have hd' : BatchHolds { σ with db := d } :=
    h.follows ((Discipline.follows_refl σ).rely hd subset_rfl rfl) rfl
  refine ⟨fun _ => ⟨hd', j, cl, rfl, hcl⟩, ?_, hd', subset_rfl⟩
  have hinsert := hd'.insert hcl
  refine Discipline.obeys_mono (fun _ σ' ⟨hσ, hheld⟩ => ?_)
    (Discipline.obeys_frame (G := analysisDiscipline cfg) (stays_expireLocked cl) within_expireLocked ?_
      (Discipline.follows_refl _) rfl)
  · rintro row (rfl | rfl)
    · exact Set.mem_insert _ _
    · exact .inr hcl
  · refine ⟨hinsert.follows hσ hheld, ?_⟩
    rw [hheld]
    exact Set.subset_insert _ _

/-- The rounds of a batch obey the rule, by induction on it. -/
theorem obeys_expireClarifications {l : List Row} {Q : Post Unit} (h : BatchHolds σ)
    (hl : ∀ row ∈ l, row ∈ σ.held) (hQ : ∀ σ', Q () σ') :
    (analysisDiscipline cfg).obeys BatchWaits (expireClarifications l) Q σ := by
  induction l generalizing σ with
  | nil => exact hQ σ
  | cons row l ih =>
    have hrest : ∀ row ∈ l, row ∈ σ.held := fun row hrow => hl row (List.mem_cons_of_mem _ hrow)
    cases row with
    | job j => exact ih h hrest
    | clarification j cl =>
      rw [expireClarifications, Prog.bind_eq, Discipline.obeys_bind]
      refine Discipline.obeys_mono (fun _ σ' hσ' => ?_)
        (obeys_expireClarification h (hl _ List.mem_cons_self))
      exact ih hσ'.1 fun row hrow => hσ'.2 (hrest row hrow)

/-- `expire_due_clarifications` obeys the rule. -/
theorem obeys_expireDue {n : ℕ} (hheld : σ.held = ∅) (hpending : σ.pending = []) :
    ObeysAll cfg BatchWaits (expireDueClarifications n) σ := by
  intro d _ l hl _
  rw [hpending] at hl
  simp only [Prog.bind_eq, Discipline.obeys_bind]
  have hrows : ∀ row ∈ l, ∃ j cl r, row = .clarification j cl ∧ d.rows j = some r ∧ Awaits cl r :=
    fun row hrow => mem_dueClarifications (hl.subset hrow)
  refine obeys_expireClarifications ⟨fun j hj => ?_, fun j cl hcl => ?_⟩ (fun row hrow => .inr hrow)
    fun σ' => ?_
  · rcases hj with hj | hj
    · rw [hheld] at hj
      exact hj.elim
    · obtain ⟨_, _, _, hrow, -⟩ := hrows _ hj
      cases hrow
  · have hmem : Row.clarification j cl ∈ l := by
      rcases hcl with hcl | hcl
      · rw [hheld] at hcl
        exact hcl.elim
      · exact hcl
    obtain ⟨j', cl', r, hrow, hr, hopen⟩ := hrows _ hmem
    exact ⟨j', cl', r, hrow, hcl, hr, hopen⟩
  · split
    · intro d' e _
      cases e <;> trivial
    · trivial

end Obeys

/-! ## Circles -/

/-- The calls that lock clarifications. -/
def AnalysisCall.isClarification : AnalysisCall → Bool
  | .respond .. | .cancelClarification .. | .expireDueClarifications _ => true
  | _ => false

/-- The process `p` runs a clarification operation and waits for a row that `q`
holds. -/
def ClarificationWaits (cfg : EngineConfig) (s : AnalysisSys) (p q : ℕ) : Prop :=
  (∃ pr, s.proc p = some pr ∧ pr.call.isClarification = true) ∧
    (analysisModel cfg).WaitsFor s p q

/-- Clarification operations wait for each other in a circle. -/
def Deadlocked (cfg : EngineConfig) (s : AnalysisSys) : Prop :=
  ∃ p, Relation.TransGen (ClarificationWaits cfg s) p p

/-- The process `p` runs a batch, and `q` an answer to the clarification `cl` that
passes its checks. -/
structure Opposed (s : AnalysisSys) (p q : ℕ) (j cl : Uuid) : Prop where
  batch : ∃ pr n, s.proc p = some pr ∧ pr.call = .expireDueClarifications n
  answer : ∃ pr r, s.proc q = some pr ∧ s.db.rows j = some r ∧ pr.call.Answers j cl r

/-- A batch holds a clarification, and an answer to it the job. -/
def Crossed (s : AnalysisSys) : Prop :=
  ∃ p q j cl, Opposed s p q j cl ∧ s.owner (.clarification j cl) = some p ∧
    s.owner (.job j) = some q

/-- Who waits in a state, and what it holds by then. -/
inductive WaitKind (s : AnalysisSys) (p q : ℕ) : Prop where
  /-- an answer that has locked nothing yet -/
  | first (hheld : s.held p = ∅)
  /-- an answer that has locked the job -/
  | answer {j cl : Uuid} {pr : Proc Row Stmt Answer Mark AnalysisDb Exc AnalysisCall} {r : JobRows}
      (hp : s.proc p = some pr) (hr : s.db.rows j = some r) (hc : pr.call.Answers j cl r)
      (hheld : s.held p = {.job j}) (howner : s.owner (.clarification j cl) = some q)
  | batch {j cl : Uuid} {pr : Proc Row Stmt Answer Mark AnalysisDb Exc AnalysisCall} {n : ℕ}
      (hp : s.proc p = some pr) (hc : pr.call = .expireDueClarifications n)
      (hholds : BatchHolds (Discipline.cfg s p pr)) (hcl : s.owner (.clarification j cl) = some p)
      (howner : s.owner (.job j) = some q) (hne : q ≠ p)

section Circles

variable {cfg : EngineConfig} {now : ℕ} {s s' : AnalysisSys} {p q : ℕ}

/-- Every process obeys the rule of its call. -/
theorem analysis_obeying (h : AnalysisReachable cfg now s) :
    (analysisDiscipline cfg).Obeying waitRule s := by
  refine (analysisDiscipline_sound cfg).obeying (emptyAnalysisDb_inv now) (fun c d _ => ?_) h
  cases c with
  | respond j cl user payload => exact obeys_respond rfl rfl
  | cancelClarification j cl user => exact obeys_cancel rfl rfl
  | expireDueClarifications n => exact obeys_expireDue rfl rfl
  | _ => exact Discipline.obeys_always _

/-- What a clarification operation that waits holds. -/
theorem ClarificationWaits.kind (h : AnalysisReachable cfg now s)
    (hw : ClarificationWaits cfg s p q) : WaitKind s p q := by
  obtain ⟨⟨pr, hp, hcall⟩, pr', row, hp', hwants, howner, hne⟩ := hw
  obtain rfl := Option.some.inj (hp.symm.trans hp')
  have hrule := (analysis_obeying h).rule (analysis_safe h) hp hwants fun hown =>
    hne (Option.some.inj (howner.symm.trans hown))
  have hanswer : ∀ j cl, AnswerWaits pr.call j cl (Discipline.cfg s p pr) row →
      WaitKind s p q := by
    rintro j cl (⟨-, hheld⟩ | ⟨rfl, hheld, r, hr, hc⟩)
    · exact .first hheld
    · exact .answer hp hr hc hheld howner
  cases hc : pr.call with
  | respond j cl user payload =>
    rw [hc] at hrule hanswer
    exact hanswer j cl hrule
  | cancelClarification j cl user =>
    rw [hc] at hrule hanswer
    exact hanswer j cl hrule
  | expireDueClarifications n =>
    rw [hc] at hrule
    obtain ⟨hholds, j, cl, rfl, hcl⟩ := hrule
    exact .batch hp hc hholds hcl howner hne
  | _ =>
    rw [hc] at hcall
    cases hcall

/-- A process that is waited for holds a row. -/
theorem ClarificationWaits.held (hw : ClarificationWaits cfg s p q) : s.held q ≠ ∅ := by
  obtain ⟨-, pr, row, -, -, howner, -⟩ := hw
  intro hempty
  have hmem : row ∈ s.held q := howner
  rw [hempty] at hmem
  exact hmem

/-- Two batches never hold clarifications of one job: one of them waits at most. -/
theorem BatchHolds.eq (h : AnalysisReachable cfg now s)
    {pr pr' : Proc Row Stmt Answer Mark AnalysisDb Exc AnalysisCall}
    (hp : BatchHolds (Discipline.cfg s p pr)) (hq : BatchHolds (Discipline.cfg s q pr'))
    {j cl cl' : Uuid} (hcl : s.owner (.clarification j cl) = some p)
    (hcl' : s.owner (.clarification j cl') = some q) : cl = cl' ∧ p = q := by
  obtain ⟨_, _, r, hrow, -, hr, x, hx, hid, hst⟩ := hp.clarifications j cl hcl
  obtain ⟨_, _, r', hrow', -, hr', x', hx', hid', hst'⟩ := hq.clarifications j cl' hcl'
  obtain ⟨rfl, rfl⟩ := Row.clarification.inj hrow
  obtain ⟨rfl, rfl⟩ := Row.clarification.inj hrow'
  obtain rfl : r = r' := Option.some.inj (hr.symm.trans hr')
  obtain rfl := (oneAwaiting_of_reachable h hr).eq hx hx' hst hst'
  obtain rfl : cl = cl' := hid.symm.trans hid'
  exact ⟨rfl, Option.some.inj (hcl.symm.trans hcl')⟩

/-- In a circle a batch and an answer have crossed. -/
theorem crossed_of_deadlocked (h : AnalysisReachable cfg now s) (hd : Deadlocked cfg s) :
    Crossed s := by
  obtain ⟨p₀, hcycle⟩ := hd
  obtain ⟨p₁, h₀, hcycle⟩ := Model.exists_step_of_cycle hcycle
  obtain ⟨p₂, h₁, hcycle⟩ := Model.exists_step_of_cycle hcycle
  obtain ⟨p₃, h₂, hcycle⟩ := Model.exists_step_of_cycle hcycle
  obtain ⟨p₄, h₃, -⟩ := Model.exists_step_of_cycle hcycle
  cases h₁.kind h with
  | first hheld => exact absurd hheld h₀.held
  | @answer j cl pr r hp hr hc hheld howner =>
    -- who holds the clarification is no answer, as it waits with more than a job
    cases h₂.kind h with
    | first hheld => exact absurd hheld h₁.held
    | @answer j' _ _ _ _ _ _ hheld' _ =>
      have hmem : Row.clarification j cl ∈ s.held p₂ := howner
      rw [hheld', Set.mem_singleton_iff] at hmem
      cases hmem
    | batch hp' hc' _ _ _ _ =>
      have hj : Row.job j ∈ s.held p₁ := hheld ▸ Set.mem_singleton _
      exact ⟨p₂, p₁, j, cl, ⟨⟨_, _, hp', hc'⟩, ⟨pr, r, hp, hr, hc⟩⟩, howner, hj⟩
  | @batch j cl pr n hp hc hholds hcl howner hne =>
    cases h₂.kind h with
    | first hheld => exact absurd hheld h₁.held
    | @answer j' cl' pr' r hp' hr hc' hheld howner' =>
      -- the answer holds the job, and waits for the clarification of another batch
      have hj : Row.job j ∈ s.held p₂ := howner
      rw [hheld, Set.mem_singleton_iff] at hj
      obtain rfl := Row.job.inj hj
      cases h₃.kind h with
      | first hheld => exact absurd hheld h₂.held
      | @answer _ _ _ _ _ _ _ hheld' _ =>
        have hmem : Row.clarification j cl' ∈ s.held p₃ := howner'
        rw [hheld', Set.mem_singleton_iff] at hmem
        cases hmem
      | batch _ _ hholds' _ _ _ =>
        obtain ⟨rfl, -⟩ := hholds.eq h hholds' hcl howner'
        exact ⟨p₁, p₂, j, cl, ⟨⟨pr, n, hp, hc⟩, ⟨pr', r, hp', hr, hc'⟩⟩, hcl, howner⟩
    | batch _ _ hholds' _ _ _ =>
      -- a batch that holds the job holds a clarification of it
      obtain ⟨cl', hcl'⟩ := hholds'.jobs j howner
      exact absurd (hholds.eq h hholds' hcl hcl').2.symm hne

/-! ## Runs without a crossing -/

/-- No step lets a batch and an answer cross: by it the batch locks a clarification
whose job the answer holds, or the answer the job of a clarification that the
batch holds. -/
def NoCrossing (cfg : EngineConfig) (a : Act Answer AnalysisCall ℕ) (s : AnalysisSys) : Prop :=
  ∀ p q j cl i pr, Opposed s p q j cl →
    (a = .exec p i → s.proc p = some pr →
      Row.clarification j cl ∈ (analysisModel cfg).takes s p pr → s.owner (.job j) ≠ some q) ∧
    (a = .exec q i → s.proc q = some pr →
      Row.job j ∈ (analysisModel cfg).takes s q pr → s.owner (.clarification j cl) ≠ some p)

theorem Opposed.ne {j cl : Uuid} (h : Opposed s p q j cl) : p ≠ q := by
  rintro rfl
  obtain ⟨⟨pr, n, hp, hc⟩, pr', r, hp', -, hanswer⟩ := h
  obtain rfl := Option.some.inj (hp.symm.trans hp')
  rw [hc] at hanswer
  rcases hanswer with ⟨payload, hanswer, -⟩ | hanswer <;> cases hanswer

/-- A step after which a batch and an answer have crossed lets them cross, or they
had crossed before. -/
theorem Crossed.of_step (h : AnalysisReachable cfg now s) {a : Act Answer AnalysisCall ℕ}
    (hok : NoCrossing cfg a s) (hs : (analysisModel cfg).step a s = some s') (hc : Crossed s') :
    Crossed s := by
  obtain ⟨p, q, j, cl, hopposed, hcl, hj⟩ := hc
  have hne := hopposed.ne
  have hsafe := analysis_safe h
  have hsound := analysisDiscipline_sound cfg
  -- the two processes served these calls before the step
  obtain ⟨⟨pr, n, hp, hbatch⟩, pr', r, hq, hr, hanswer⟩ := hopposed
  obtain ⟨pr₁, hp₁, hcall₁⟩ := hsafe.call_of_owner hsound hs hcl hp
  obtain ⟨pr₂, hq₂, hcall₂⟩ := hsafe.call_of_owner hsound hs hj hq
  rw [← hcall₁] at hbatch
  rw [← hcall₂] at hanswer
  have hbefore : s'.db.rows j = s.db.rows j → Opposed s p q j cl := fun hrows =>
    ⟨⟨pr₁, n, hp₁, hbatch⟩, pr₂, r, hq₂, hrows.symm.trans hr, hanswer⟩
  rcases Model.owner_of_step hs hcl with hcl₀ | ⟨i, pr₀, rfl, hp₀, htakes, hdb⟩
  · rcases Model.owner_of_step hs hj with hj₀ | ⟨i, pr₀, rfl, hq₀, htakes, hdb⟩
    · exact ⟨p, q, j, cl, hbefore (hsafe.agree_of_owner hsound hs hj₀ hj), hcl₀, hj₀⟩
    · have hopposed := hbefore (by rw [hdb])
      exact absurd hcl₀ ((hok p q j cl i pr₀ hopposed).2 rfl hq₀ htakes)
  · rcases Model.owner_of_step hs hj with hj₀ | ⟨i', _, ha, -⟩
    · have hopposed := hbefore (by rw [hdb])
      exact absurd hj₀ ((hok p q j cl i pr₀ hopposed).1 rfl hp₀ htakes)
    · exact absurd (Act.exec.inj ha).1 hne

/-- **No deadlock** of clarification operations, in every run in which no batch crosses an answer.
Who waits for whom is read off the locks that are held, so this is about any number of users and
batches at once. -/
theorem clarifications_notDeadlocked
    (h : (analysisModel cfg).ReachableBy (NoCrossing cfg) (emptyAnalysisDb now) s) :
    ¬ Deadlocked cfg s := by
  refine fun hd => absurd (crossed_of_deadlocked h.reachable hd) ?_
  clear hd
  induction h with
  | start =>
    rintro ⟨_, _, _, _, ⟨⟨_, _, hp, _⟩, -⟩, -⟩
    cases hp
  | step h hok hs ih => exact fun hc => ih (hc.of_step h.reachable hok hs)

end Circles

/-- A test that no step by which a batch and an answer cross passes. -/
def keepsApart (cfg : EngineConfig) (a : Act Answer AnalysisCall ℕ) (s : AnalysisSys) : Bool :=
  match a with
  | .exec p _ => (s.proc p).all fun pr =>
    match pr.call with
    | .respond j cl _ _ | .cancelClarification j cl _ => s.free p (.clarification j cl)
    | .expireDueClarifications _ => ((analysisModel cfg).takes s p pr).all fun row =>
      s.free p (.job (jobOf row))
    | _ => true
  | _ => true

theorem noCrossing_of_keepsApart {cfg : EngineConfig} (a : Act Answer AnalysisCall ℕ)
    (s : AnalysisSys) (h : keepsApart cfg a s = true) : NoCrossing cfg a s := by
  -- what a process may have does not belong to another
  have hfree : ∀ {p q row}, p ≠ q → s.free p row = true → s.owner row ≠ some q := by
    intro p q row hpq hfree howner
    simp [Sys.free, howner, hpq.symm] at hfree
  intro p q j cl i pr hopposed
  obtain ⟨⟨prp, n, hp, hbatch⟩, prq, r, hq, -, hanswer⟩ := id hopposed
  refine ⟨?_, ?_⟩
  · rintro rfl hp' htakes
    obtain rfl := Option.some.inj (hp.symm.trans hp')
    simp only [keepsApart, hp, Option.all_some, hbatch, List.all_eq_true] at h
    exact hfree hopposed.ne (h _ htakes)
  · rintro rfl hq' -
    obtain rfl := Option.some.inj (hq.symm.trans hq')
    refine hfree hopposed.ne.symm ?_
    rcases hanswer with ⟨payload, hanswer, -⟩ | hanswer <;>
      simpa only [keepsApart, hq, Option.all_some, hanswer] using h

/-- A job that waits for its answer until the question is due. -/
def untilDue : List (Act Answer AnalysisCall ℕ) :=
  Model.serve 0 (.createAnalysis 5 "2025-Q4" none []) 5 { uuid := 7 } ++
    Model.serve 1 (.runOnce "w") 33 { uuid := 9, normalization := institutionAsked } ++ [.env 900]

/-- An answer waits for the job that a batch expires. -/
theorem clarifications_notDeadlocked_expired : ∃ s : AnalysisSys,
    (analysisModel ⟨.ascii⟩).WaitsFor s 3 2 ∧ ¬ Deadlocked ⟨.ascii⟩ s := by
  have hrun : (((analysisModel ⟨.ascii⟩).runBy (keepsApart ⟨.ascii⟩)
      (untilDue ++ Model.serve 2 (.expireDueClarifications 10) 2 { uuid := 0 } ++
        Model.serve 3 (.respond 7 9 5 []) 0 { uuid := 0 })
      (Model.idle (emptyAnalysisDb 100))).map fun s =>
        (analysisModel ⟨.ascii⟩).waitsFor s 3 2) = some true := by
    decide +kernel
  obtain ⟨s, hs, hwaits⟩ := Option.map_eq_some_iff.mp hrun
  have h := Model.ReachableBy.later .start (Model.LaterBy.of_runBy noCrossing_of_keepsApart hs)
  exact ⟨s, Model.waitsFor_eq_true hwaits, clarifications_notDeadlocked h⟩

/-- An answer holds the job, a batch the clarification, and each waits for the
other. -/
theorem clarifications_deadlocked :
    ¬ ∀ (cfg : EngineConfig) (now : ℕ) (s : AnalysisSys), AnalysisReachable cfg now s →
      ¬ Deadlocked cfg s := by
  intro hnever
  have hrun : (((analysisModel ⟨.ascii⟩).run
      (untilDue ++ Model.serve 2 (.respond 7 9 5 []) 2 { uuid := 0 } ++
        Model.serve 3 (.expireDueClarifications 10) 1 { uuid := 0 })
      (Model.idle (emptyAnalysisDb 100))).map fun s =>
        ((analysisModel ⟨.ascii⟩).waitsFor s 2 3 &&
          (analysisModel ⟨.ascii⟩).waitsFor s 3 2) &&
        ((s.proc 2).any (·.call.isClarification) && (s.proc 3).any (·.call.isClarification))) =
          some true := by
    decide +kernel
  obtain ⟨s, hs, htest⟩ := Option.map_eq_some_iff.mp hrun
  simp only [Bool.and_eq_true, Option.any_eq_true] at htest
  obtain ⟨⟨h₂, h₃⟩, hc₂, hc₃⟩ := htest
  have h : AnalysisReachable ⟨.ascii⟩ 100 s :=
    Model.ReachableBy.later .start (Model.LaterBy.of_runBy (fun _ _ _ => trivial) hs)
  refine hnever _ _ s h ⟨2, .tail (.single (b := 3) ?_) ?_⟩
  · exact ⟨hc₂, Model.waitsFor_eq_true h₂⟩
  · exact ⟨hc₃, Model.waitsFor_eq_true h₃⟩

end FinanceIntelligence
