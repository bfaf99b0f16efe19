import FinanceIntelligence.CalculationOutcome
import FinanceIntelligence.Overlooks

/-!
# The lookups of a calculation

A formula looks for one fact of each of its roles. **A run returns only if each lookup finds exactly
one**, and facts that no lookup finds, and that it is not compared with, make no difference to it.
-/

namespace FinanceIntelligence

open CalcProg CalculationService Prog

/-- The contents with other facts. -/
def CalcDb.withFacts (d : CalcDb) (facts : List FinancialFact) : CalcDb :=
  { d with tables := { d.tables with reviewed := { d.tables.reviewed with facts } } }

/-- The contents without the facts that are not kept. -/
def CalcDb.keeping (d : CalcDb) (keep : FinancialFact → Bool) : CalcDb :=
  d.withFacts (d.facts.filter keep)

variable {cfg : CalcConfig} {args : RunArgs} {f : Formula} {α : Type} {answer : ℕ → CalcAnswer}
  {σ σ' : Solo CalcStmt CalcDb} {o : RunOutcome} {d d' : CalcDb}

namespace CalculationService

/-! ## Lookups -/

/-- The lookups of a formula, with the roles of the facts. -/
def lookups (args : RunArgs) (f : Formula) (comp : Option Uuid) :
    List (InputRole × (FinancialFact → Bool)) :=
  let period := some args.reportingPeriodId
  let metric (p : Option Uuid) (code : String) (x : FinancialFact) :=
    eligible args p x && x.metricCode == code
  let metrics := f.expectedMetricCodes
  match f with
  | .loanToDepositRatio | .nplRatio =>
    [(.numerator, metric period metrics.1), (.denominator, metric period metrics.2)]
  | .growthRate => [(.currentValue, eligible args period), (.comparisonValue, eligible args comp)]
  | .returnOnAssets | .returnOnEquity =>
    [(.periodIncome, metric period metrics.1), (.beginningBalance, metric comp metrics.2),
      (.endingBalance, metric period metrics.2)]

/-- The fact of a role is the only one that its lookup finds. -/
def OnlyFound (d : CalcDb) (x : InputRole × FinancialFact)
    (l : InputRole × (FinancialFact → Bool)) : Prop :=
  x.1 = l.1 ∧ foundFacts l.2 d = [x.2]

theorem oneOrNone_eq_some {l : List α} {a : α} (h : oneOrNone l = .ok (some a)) : l = [a] := by
  match l with
  | [] | _ :: _ :: _ => cases h
  | [b] =>
    cases h
    rfl

/-- **Each lookup finds exactly one fact** if the facts are selected. -/
theorem onlyFound_of_selectFacts {comp : Option Uuid} {facts : FactObjects}
    (h : value (selectFacts args f comp) d = .ok facts) :
    List.Forall₂ (OnlyFound d) facts (lookups args f comp) := by
  have hone {q : FinancialFact → Bool} {a : FinancialFact}
      (h : value (selectFact q) d = .ok (some a)) : foundFacts q d = [a] := by
    rw [value_selectFact] at h
    exact oneOrNone_eq_some h
  cases f with
  | loanToDepositRatio | nplRatio | growthRate =>
    obtain ⟨x, hx, h⟩ := value_bind_eq_ok (consults_selectFact _) h
    obtain ⟨y, hy, h⟩ := value_bind_eq_ok (consults_selectFact _) h
    match x, y with
    | some x, some y =>
      cases h
      exact .cons ⟨rfl, hone hx⟩ (.cons ⟨rfl, hone hy⟩ .nil)
    | some _, none | none, _ => cases h
  | returnOnAssets | returnOnEquity =>
    obtain ⟨inc, hinc, h⟩ := value_bind_eq_ok (consults_selectFact _) h
    obtain ⟨beg, hbeg, h⟩ := value_bind_eq_ok (consults_selectFact _) h
    obtain ⟨fin, hfin, h⟩ := value_bind_eq_ok (consults_selectFact _) h
    match inc, beg, fin with
    | some inc, some beg, some fin =>
      dsimp only at h
      split at h
      · cases h
      · cases h
        exact .cons ⟨rfl, hone hinc⟩ (.cons ⟨rfl, hone hbeg⟩ (.cons ⟨rfl, hone hfin⟩ .nil))
    | none, _, _ | some _, none, _ | some _, some _, none => cases h

/-- The comparison period of a formula, as it is resolved. -/
def comparisonPeriod (args : RunArgs) (f : Formula) (d : CalcDb) : Option Uuid :=
  match value (resolvePeriods args f) d with
  | .ok periods => periods.2.map (·.id)
  | .error _ => none

/-- The parts of a selection. -/
theorem selectInputs_value {s : SelectedInputs} (h : value (selectInputs args f) d = .ok s) :
    s.comparisonPeriodId = comparisonPeriod args f d ∧
      value (selectFacts args f (comparisonPeriod args f d)) d = .ok s.facts ∧
      consistencyError s.facts = none := by
  obtain ⟨periods, hperiods, h⟩ := value_bind_eq_ok (tablesOnly_resolvePeriods _ _).1 h
  obtain ⟨factor, -, h⟩ := value_bind_eq_ok (consults_lift _) h
  obtain ⟨facts, hfacts, h⟩ := value_bind_eq_ok (tablesOnly_selectFacts _ _ _).1 h
  have hcomp : comparisonPeriod args f d = periods.2.map (·.id) := by
    rw [comparisonPeriod, hperiods]
  split at h
  · cases h
  · rename_i hnone
    cases h
    rw [hcomp]
    exact ⟨rfl, hfacts, hnone⟩

/-! ## Facts that make no difference -/

/-- The contents differ in facts alone, and neither in what the lookups find nor in the figure to
compare with. -/
structure SameLookups (args : RunArgs) (f : Formula) (d d' : CalcDb) : Prop where
  /-- only facts differ -/
  facts : ∃ facts, d' = d.withFacts facts
  /-- the lookups find the same -/
  lookups : ∀ l ∈ lookups args f (comparisonPeriod args f d), foundFacts l.2 d' = foundFacts l.2 d
  /-- the figure that was reported is the same -/
  reported : reportedFigures args d' = reportedFigures args d

theorem comparisonPeriod_tables (h : d.tables = d'.tables) :
    comparisonPeriod args f d = comparisonPeriod args f d' := by
  rw [comparisonPeriod, comparisonPeriod, (tablesOnly_resolvePeriods args f).2 d d' h]

theorem tables_apply (s : CalcStmt) (d : CalcDb) :
    (calcSchema.apply s d).tables = d.tables := by
  cases s <;> rfl

theorem foundFacts_tables {q : FinancialFact → Bool} (h : d.tables = d'.tables) :
    foundFacts q d = foundFacts q d' := by
  simp only [foundFacts, lockedFacts, CalcDb.facts, h]

theorem reportedFigures_tables (h : d.tables = d'.tables) :
    reportedFigures args d = reportedFigures args d' := by
  simp only [reportedFigures, CalcDb.facts, h]

/-- No constraint is about facts. -/
theorem respects_sameLookups : calcSchema.Respects (SameLookups args f) where
  check {a d d'} h := by
    obtain ⟨facts, rfl⟩ := h.facts
    cases a <;> rfl
  apply {a d d'} h := by
    obtain ⟨⟨facts, rfl⟩, hlookups, hreported⟩ := h
    refine ⟨⟨facts, by cases a <;> rfl⟩, fun l hl => ?_, ?_⟩
    · rw [comparisonPeriod_tables (tables_apply a d)] at hl
      rw [foundFacts_tables (tables_apply a _), hlookups l hl, foundFacts_tables (tables_apply a d)]
    · rw [reportedFigures_tables (tables_apply a _), hreported,
        reportedFigures_tables (tables_apply a d)]

/-- The program does not look at the difference. -/
abbrev Ignores (args : RunArgs) (f : Formula) (p : CalcProg α) : Prop :=
  p.Overlooks calcSchema (SameLookups args f)

theorem ignores_attempt : Ignores args f attempt :=
  overlooks_ask fun i => by
    split
    · exact overlooks_raise _
    · exact overlooks_ret _

theorem ignores_uuid4 : Ignores args f uuid4 := overlooks_ask fun _ => overlooks_ret _

theorem ignores_lift (e : Except CalcExc α) : Ignores args f (lift e) := by
  cases e with
  | ok a => exact overlooks_ret a
  | error x => exact overlooks_raise x

theorem ignores_select {q : CalcDb → α} (hq : ∀ {d d'}, SameLookups args f d d' → q d' = q d) :
    Ignores args f (select q) :=
  ignores_attempt.bind fun _ => overlooks_read respects_sameLookups
    (fun h => by rw [hq h]) fun _ => overlooks_ret _

theorem ignores_selectOne {q : CalcDb → List α}
    (hq : ∀ {d d'}, SameLookups args f d d' → q d' = q d) : Ignores args f (CalcProg.selectOne q) :=
  (ignores_select hq).bind fun l =>
    match l with
    | [] => overlooks_ret _
    | [_] => overlooks_ret _
    | _ :: _ :: _ => overlooks_raise _

theorem ignores_write {s : CalcStmt} {k : Bool → CalcProg α} (hk : ∀ b, Ignores args f (k b)) :
    Ignores args f (Prog.write s k) := overlooks_write respects_sameLookups hk

theorem ignores_execute (s : CalcStmt) : Ignores args f (execute s) :=
  ignores_attempt.bind fun _ => ignores_write fun b => by
    split
    · exact overlooks_ret _
    · exact overlooks_raise _

theorem ignores_executeAll : ∀ l, Ignores args f (executeAll l)
  | [] => overlooks_ret _
  | s :: l => (ignores_execute s).bind fun _ => ignores_executeAll l

theorem ignores_commit : Ignores args f commit :=
  ignores_attempt.bind fun _ => overlooks_commit respects_sameLookups fun o => by
    cases o with
    | none => exact overlooks_ret _
    | some _ => exact overlooks_raise _

theorem ignores_rollback : Ignores args f rollback := overlooks_rollback (overlooks_ret _)

theorem ignores_lockRequest (org : Uuid) (fp : String) : Ignores args f (lockRequest org fp) := by
  have hrequest {d d' : CalcDb} (h : SameLookups args f d d') : d'.request org fp =
      d.request org fp := by
    obtain ⟨facts, rfl⟩ := h.facts
    rfl
  refine ignores_attempt.bind fun _ => overlooks_lock respects_sameLookups
    (fun h => by rw [hrequest h]) fun b => ?_
  split
  · exact overlooks_read respects_sameLookups (fun h => by rw [hrequest h]) fun _ =>
      overlooks_ret _
  · exact overlooks_ret _

/-! ## The parts of a run -/

variable {args' : RunArgs}

theorem ignores_resolveRequest (comp : Option Uuid) :
    Ignores args f (resolveRequest cfg args' comp) := by
  refine (ignores_lockRequest _ _).bind fun first => ?_
  cases first with
  | some r => exact overlooks_ret _
  | none =>
    refine ignores_uuid4.bind fun id => ignores_attempt.bind fun _ =>
      Overlooks.bind (ignores_write fun _ => overlooks_ret _) fun inserted => ?_
    split
    · exact overlooks_ret _
    · refine (ignores_lockRequest _ _).bind fun second => ?_
      cases second with
      | some r => exact overlooks_ret _
      | none => exact overlooks_raise _

theorem ignores_existing (org : Uuid) (hash : String) : Ignores args f (existing org hash) := by
  refine (ignores_selectOne fun h => ?_).bind fun found => ?_
  · obtain ⟨facts, rfl⟩ := h.facts
    rfl
  · cases found with
    | none => exact overlooks_ret _
    | some calculation =>
      refine (ignores_select fun h => ?_).bind fun inputs =>
        (ignores_selectOne fun h => ?_).bind fun reconciliation => overlooks_ret _
      · obtain ⟨facts, rfl⟩ := h.facts
        rfl
      · obtain ⟨facts, rfl⟩ := h.facts
        rfl

theorem ignores_collectEvidence (org calcId inputId : Uuid) (x : FinancialFact) :
    ∀ l, Ignores args f (collectEvidence cfg org calcId inputId x l)
  | [] => overlooks_ret _
  | (_, ev) :: rest => by
    refine (ignores_select fun h => ?_).bind fun error => ?_
    · obtain ⟨facts, rfl⟩ := h.facts
      rfl
    · cases error with
      | some e => exact overlooks_raise _
      | none =>
        exact ignores_uuid4.bind fun _ =>
          (ignores_collectEvidence org calcId inputId x rest).bind fun _ => overlooks_ret _

theorem ignores_collectInputs (org calcId : Uuid) (factor : ℚ) :
    ∀ facts, Ignores args f (collectInputs cfg org calcId factor facts)
  | [] => overlooks_ret _
  | (_, x) :: rest => by
    refine (ignores_select fun h => ?_).bind fun evidence => ?_
    · obtain ⟨facts, rfl⟩ := h.facts
      rfl
    · dsimp only
      split
      · exact overlooks_raise _
      · exact ignores_uuid4.bind fun _ => (ignores_collectEvidence _ _ _ _ _).bind fun _ =>
          (ignores_collectInputs org calcId factor rest).bind fun _ => overlooks_ret _

theorem ignores_addLineage (e : Execution) (result : FormulaResult) (calculation : Calculation)
    (inputs : List CalculationInput) (evidences : List CalculationEvidence) :
    Ignores args f (addLineage args e result calculation inputs evidences) := by
  have hrest (reconciliation : Option CalculationReconciliation) : Ignores args f (do
      executeAll (evidences.map .insertEvidence ++ inputs.map .insertInput ++
        reconciliation.toList.map .insertReconciliation)
      recordEvent
      commit
      return ⟨calculation, inputs, reconciliation⟩ : CalcProg RunOutcome) :=
    (ignores_executeAll _).bind fun _ => ignores_attempt.bind fun _ => ignores_commit.bind fun _ =>
      overlooks_ret _
  refine (ignores_selectOne fun h => h.reported).bind fun source => ?_
  cases source with
  | none => exact hrest none
  | some source => exact ignores_uuid4.bind fun _ => hrest _

theorem ignores_complete (e : Execution) (calcId : Uuid) (inputs : List CalculationInput)
    (evidences : List CalculationEvidence) :
    Ignores args f (complete args e calcId inputs evidences) := by
  refine (ignores_lift _).bind fun result => (ignores_select fun h => ?_).bind fun last =>
    ignores_uuid4.bind fun attemptId => (ignores_execute _).bind fun _ =>
    ignores_attempt.bind fun _ =>
    Overlooks.bind (ignores_write fun _ => overlooks_ret _) fun inserted => ?_
  · obtain ⟨facts, rfl⟩ := h.facts
    rfl
  · split
    · exact ignores_addLineage _ _ _ _ _
    · split
      · exact overlooks_raise _
      · refine (ignores_existing _ _).bind fun found => ?_
        cases found with
        | some winner => exact overlooks_ret _
        | none => exact overlooks_raise _

theorem ignores_executeRun (v : VerifiedFormula) (s : SelectedInputs) (hash : String) :
    Ignores args f (executeRun cfg args v s hash) := by
  refine (ignores_resolveRequest _).bind fun request => (ignores_existing _ _).bind fun found => ?_
  cases found with
  | some outcome => exact overlooks_ret _
  | none =>
    exact ignores_uuid4.bind fun _ => (ignores_collectInputs _ _ _ _).bind fun _ =>
      ignores_complete _ _ _ _

theorem ignores_recordFailure (hash : Option String) (checksums : Option (String × String))
    (code : String) : Ignores args f (recordFailure cfg args' hash checksums code) := by
  refine ignores_attempt.bind fun _ => (ignores_resolveRequest _).bind fun request =>
    (ignores_select fun h => ?_).bind fun last => ignores_uuid4.bind fun id =>
    (ignores_execute _).bind fun _ => ignores_attempt.bind fun _ => ignores_commit
  obtain ⟨facts, rfl⟩ := h.facts
  rfl

theorem ignores_handle (hash : Option String) (checksums : Option (String × String))
    (x : CalcExc) : Ignores args f (handle cfg args' hash checksums x : CalcProg α) :=
  ignores_rollback.bind fun _ => ((ignores_recordFailure _ _ _).tryCatch fun _ =>
    ignores_rollback.bind fun _ => overlooks_raise _).bind fun _ => overlooks_raise _

theorem ignores_verifyFormula : Ignores args f (verifyFormula cfg args') := by
  refine (ignores_lift _).bind fun g => (ignores_selectOne fun h => ?_).bind fun found => ?_
  · obtain ⟨facts, rfl⟩ := h.facts
    rfl
  · cases found with
    | none => exact overlooks_raise _
    | some definition => exact (ignores_lift _).bind fun _ => overlooks_ret _

theorem ignores_resolveComparison (requirement : ComparisonRequirement) (rep : PeriodRow) :
    Ignores args f (resolveComparison args' requirement rep) := by
  have hfound (p : Option PeriodRow) : Ignores args f (found p) := by
    cases p with
    | none => exact overlooks_raise _
    | some p => exact overlooks_ret _
  have hselect {α : Type} {q : CalcDb → α}
      (hq : ∀ (d : CalcDb) facts, q (d.withFacts facts) = q d) : Ignores args f (select q) :=
    ignores_select fun h => by
      obtain ⟨facts, rfl⟩ := h.facts
      exact hq _ facts
  have hperiod (id : Uuid) : Ignores args f (do
      let comp ← (selectPeriod args'.organizationId id).bind found
      if comp.periodType ≠ rep.periodType then .raise (.value "PERIOD_TYPE_MISMATCH")
      else return comp : CalcProg PeriodRow) := by
    refine ((ignores_selectOne fun h => ?_).bind hfound).bind fun comp => ?_
    · obtain ⟨facts, rfl⟩ := h.facts
      rfl
    · split
      · exact overlooks_raise _
      · exact overlooks_ret _
  unfold resolveComparison
  split
  · exact overlooks_raise _
  · exact overlooks_raise _
  · exact (hselect fun _ _ => rfl).bind hfound
  · exact (hselect fun _ _ => rfl).bind hfound
  · exact hperiod _

theorem ignores_resolvePeriods : Ignores args f (resolvePeriods args' f) := by
  refine (ignores_selectOne fun h => ?_).bind fun rep => ?_
  · obtain ⟨facts, rfl⟩ := h.facts
    rfl
  · cases rep with
    | none => exact overlooks_raise _
    | some rep =>
      dsimp only
      split
      · exact overlooks_ret _
      · exact (ignores_resolveComparison _ _).bind fun _ => overlooks_ret _
      · refine (ignores_resolveComparison _ _).bind fun comp => ?_
        split
        · exact overlooks_raise _
        · exact overlooks_ret _

/-- A lookup that finds the same. -/
theorem sameEnd_selectFact {q : FinancialFact → Bool} {τ : Solo CalcStmt CalcDb}
    (h : σ.Like (SameLookups args f) τ)
    (hq : foundFacts q (τ.view calcSchema) = foundFacts q (σ.view calcSchema)) :
    SameEnd (SameLookups args f) ((selectFact q).alone calcSchema answer σ)
      ((selectFact q).alone calcSchema answer τ) := by
  have halone (σ : Solo CalcStmt CalcDb) : (selectFact q).alone calcSchema answer σ =
      (if (answer σ.asked).fails then .error .outside
        else oneOrNone (foundFacts q (σ.view calcSchema)), { σ with asked := σ.asked + 1 }) := by
    rw [selectFact, alone_bind, alone_select]
    cases (answer σ.asked).fails with
    | true => rfl
    | false =>
      simp only [Bool.false_eq_true, if_false]
      rw [alone_bind_ok (alone_lockFacts q _)]
      simp only [view_asked, foundFacts]
      generalize lockedFacts q _ _ = l
      rcases l with _ | ⟨x, _ | ⟨y, l⟩⟩
      · rfl
      · rfl
      · rfl
  rw [halone, halone, h.asked, hq]
  exact ⟨rfl, h.pending, rfl, h.db⟩

/-- The query is one of the lookups. -/
def IsLookup (args : RunArgs) (f : Formula) (comp : Option Uuid)
    (q : FinancialFact → Bool) : Prop :=
  ∃ role, (role, q) ∈ lookups args f comp

/-- A lookup of the formula, and what follows it. -/
theorem sameEnd_lookup {q : FinancialFact → Bool} {comp : Option Uuid}
    {k : Option FinancialFact → CalcProg α} {τ : Solo CalcStmt CalcDb}
    (hq : IsLookup args f comp q) (hcomp : comparisonPeriod args f (σ.view calcSchema) = comp)
    (h : σ.Like (SameLookups args f) τ)
    (hk : ∀ x {σ' τ' : Solo CalcStmt CalcDb},
      comparisonPeriod args f (σ'.view calcSchema) = comp → σ'.Like (SameLookups args f) τ' →
        SameEnd (SameLookups args f) ((k x).alone calcSchema answer σ')
          ((k x).alone calcSchema answer τ')) :
    SameEnd (SameLookups args f) (((selectFact q).bind k).alone calcSchema answer σ)
      (((selectFact q).bind k).alone calcSchema answer τ) := by
  obtain ⟨role, hl⟩ := hq
  have hview := h.view respects_sameLookups
  refine (sameEnd_selectFact h (hview.lookups _ (hcomp ▸ hl))).bind fun {x σ' τ'} hx _ h' => ?_
  obtain ⟨-, n, rfl⟩ := (yields_selectFact q).returns hx
  exact hk x hcomp h'

theorem sameEnd_two {q₁ q₂ : FinancialFact → Bool} {r₁ r₂ : InputRole} {comp : Option Uuid}
    {τ : Solo CalcStmt CalcDb} (h₁ : IsLookup args f comp q₁) (h₂ : IsLookup args f comp q₂)
    (hcomp : comparisonPeriod args f (σ.view calcSchema) = comp)
    (h : σ.Like (SameLookups args f) τ) {p : CalcProg FactObjects}
    (hp : p = do
      let a ← selectFact q₁
      let b ← selectFact q₂
      match a, b with
      | some a, some b => return [(r₁, a), (r₂, b)]
      | _, _ => insufficient) :
    SameEnd (SameLookups args f) (p.alone calcSchema answer σ) (p.alone calcSchema answer τ) := by
  subst hp
  refine sameEnd_lookup h₁ hcomp h fun a _ _ hcomp h => ?_
  refine sameEnd_lookup h₂ hcomp h fun b _ _ hcomp h => ?_
  split
  · exact ⟨rfl, h⟩
  · exact ⟨rfl, h⟩

theorem sameEnd_three {q₁ q₂ q₃ : FinancialFact → Bool} {comp : Option Uuid}
    {τ : Solo CalcStmt CalcDb} (h₁ : IsLookup args f comp q₁) (h₂ : IsLookup args f comp q₂)
    (h₃ : IsLookup args f comp q₃) (hcomp : comparisonPeriod args f (σ.view calcSchema) = comp)
    (h : σ.Like (SameLookups args f) τ) {p : CalcProg FactObjects}
    (hp : p = do
      let inc ← selectFact q₁
      let beg ← selectFact q₂
      let fin ← selectFact q₃
      match inc, beg, fin with
      | some inc, some beg, some fin =>
        if beg.id = fin.id then .raise (.value "DUPLICATE_BALANCE_INPUT")
        else return [(.periodIncome, inc), (.beginningBalance, beg), (.endingBalance, fin)]
      | _, _, _ => insufficient) :
    SameEnd (SameLookups args f) (p.alone calcSchema answer σ) (p.alone calcSchema answer τ) := by
  subst hp
  refine sameEnd_lookup h₁ hcomp h fun inc _ _ hcomp h => ?_
  refine sameEnd_lookup h₂ hcomp h fun beg _ _ hcomp h => ?_
  refine sameEnd_lookup h₃ hcomp h fun fin _ _ hcomp h => ?_
  split
  · split
    · exact ⟨rfl, h⟩
    · exact ⟨rfl, h⟩
  · exact ⟨rfl, h⟩

theorem sameEnd_selectFacts {comp : Option Uuid} {τ : Solo CalcStmt CalcDb}
    (hcomp : comparisonPeriod args f (σ.view calcSchema) = comp)
    (h : σ.Like (SameLookups args f) τ) :
    SameEnd (SameLookups args f) ((selectFacts args f comp).alone calcSchema answer σ)
      ((selectFacts args f comp).alone calcSchema answer τ) := by
  have hfirst {l : List (InputRole × (FinancialFact → Bool))} {x : InputRole × _}
      (hl : lookups args f comp = x :: l) : IsLookup args f comp x.2 :=
    ⟨x.1, by rw [hl]; exact List.mem_cons_self⟩
  have hsecond {l : List (InputRole × (FinancialFact → Bool))} {x y : InputRole × _}
      (hl : lookups args f comp = x :: y :: l) : IsLookup args f comp y.2 :=
    ⟨y.1, by rw [hl]; exact List.mem_cons_of_mem _ List.mem_cons_self⟩
  have hthird {l : List (InputRole × (FinancialFact → Bool))} {x y z : InputRole × _}
      (hl : lookups args f comp = x :: y :: z :: l) : IsLookup args f comp z.2 :=
    ⟨z.1, by rw [hl]; exact List.mem_cons_of_mem _ (List.mem_cons_of_mem _ List.mem_cons_self)⟩
  cases f with
  | loanToDepositRatio | nplRatio | growthRate =>
    exact sameEnd_two (hfirst rfl) (hsecond rfl) hcomp h rfl
  | returnOnAssets | returnOnEquity =>
    exact sameEnd_three (hfirst rfl) (hsecond rfl) (hthird rfl) hcomp h rfl

theorem sameEnd_selectInputs {τ : Solo CalcStmt CalcDb} (h : σ.Like (SameLookups args f) τ) :
    SameEnd (SameLookups args f) ((selectInputs args f).alone calcSchema answer σ)
      ((selectInputs args f).alone calcSchema answer τ) := by
  refine (ignores_resolvePeriods answer h).bind fun {periods σ₁ τ₁} hperiods _ h₁ => ?_
  obtain ⟨hvalue, n, rfl⟩ := (tablesOnly_resolvePeriods args f).1.returns hperiods
  refine (ignores_lift _ answer h₁).bind fun {factor σ₂ τ₂} hfactor _ h₂ => ?_
  rw [alone_lift, Prod.mk.injEq] at hfactor
  obtain ⟨-, rfl⟩ := hfactor
  have hcomp : comparisonPeriod args f (σ.view calcSchema) = periods.2.map (·.id) := by
    rw [comparisonPeriod, hvalue]
  refine (sameEnd_selectFacts (σ := { σ with asked := n }) hcomp h₂).bind fun {facts σ₃ τ₃} _ _ h₃ => ?_
  split
  · exact ⟨rfl, h₃⟩
  · exact ⟨rfl, h₃⟩

/-- **Facts that no lookup finds make no difference.** -/
theorem sameEnd_runCalculation (hcode : Formula.getFormula args.formulaCode = .ok f)
    {τ : Solo CalcStmt CalcDb} (h : σ.Like (SameLookups args f) τ) :
    SameEnd (SameLookups args f) ((runCalculation cfg args).alone calcSchema answer σ)
      ((runCalculation cfg args).alone calcSchema answer τ) := by
  refine (ignores_attempt answer h).bind fun {_ σ₁ τ₁} _ _ h₁ => ?_
  refine (ignores_attempt answer h₁).bind fun {_ σ₂ τ₂} _ _ h₂ => ?_
  refine ((ignores_verifyFormula.tryCatch fun _ => ignores_handle _ _ _) answer h₂).bind
    fun {v σ₃ τ₃} hv _ h₃ => ?_
  have hv := alone_of_tryCatch (fun _ _ => raises_handle _ _ _ _) hv
  obtain rfl := Except.ok.inj ((formula_of_verifyFormula hv).symm.trans hcode)
  refine ((sameEnd_selectInputs h₃).tryCatch fun _ => ignores_handle _ _ _).bind
    fun {s σ₄ τ₄} _ _ h₄ => ?_
  exact ((ignores_executeRun _ _ _).tryCatch fun _ => ignores_handle _ _ _) answer h₄

/-! ## Facts that are not kept -/

/-- The run returns. -/
def Returns (cfg : CalcConfig) (args : RunArgs) (answer : ℕ → CalcAnswer) (d : CalcDb) : Prop :=
  ∃ o σ', (runCalculation cfg args).alone calcSchema answer { db := d } = (.ok o, σ')

/-- The parts of a run that returns. -/
theorem selected_of_returns (hcode : Formula.getFormula args.formulaCode = .ok f)
    (h : Returns cfg args answer d) : ∃ s, value (selectInputs args f) d = .ok s := by
  obtain ⟨o, σ', h⟩ := h
  obtain ⟨v, s, σ₁, hv, hs, -, -⟩ := runCalculation_eq_ok h
  obtain rfl := Except.ok.inj ((formula_of_value hv).symm.trans hcode)
  exact ⟨s, hs⟩

theorem exists_right_of_forall₂ {β : Type} {r : α → β → Prop} {l : List α} {l' : List β}
    (h : List.Forall₂ r l l') {a : α} (ha : a ∈ l) : ∃ b ∈ l', r a b := by
  induction h with
  | nil => cases ha
  | cons hab _ ih =>
    cases ha with
    | head => exact ⟨_, List.mem_cons_self, hab⟩
    | tail _ ha =>
      obtain ⟨b, hb, hr⟩ := ih ha
      exact ⟨b, List.mem_cons_of_mem _ hb, hr⟩

theorem exists_left_of_forall₂ {β : Type} {r : α → β → Prop} {l : List α} {l' : List β}
    (h : List.Forall₂ r l l') {b : β} (hb : b ∈ l') : ∃ a ∈ l, r a b :=
  exists_right_of_forall₂ h.flip hb

/-- Each lookup of a run that returns finds one fact. -/
theorem onlyFound_of_returns (hcode : Formula.getFormula args.formulaCode = .ok f)
    (h : Returns cfg args answer d) {l : InputRole × (FinancialFact → Bool)}
    (hl : l ∈ lookups args f (comparisonPeriod args f d)) : ∃ x, foundFacts l.2 d = [x] := by
  obtain ⟨s, hs⟩ := selected_of_returns hcode h
  obtain ⟨x, -, hx⟩ :=
    exists_left_of_forall₂ (onlyFound_of_selectFacts (selectInputs_value hs).2.1) hl
  exact ⟨x.2, hx.2⟩

/-- No lookup finds a fact that is not kept. -/
def NoFurther (args : RunArgs) (f : Formula) (keep : FinancialFact → Bool) (d : CalcDb) : Prop :=
  ∀ l ∈ lookups args f (comparisonPeriod args f d), ∀ x ∈ d.facts, l.2 x = true → keep x = true

/-- **Where further facts do no harm**: a run that returns without them returns with them exactly
if no lookup finds one of them. -/
theorem returns_iff_noFurther {keep : FinancialFact → Bool} (hids : UniqueFacts d)
    (hcode : Formula.getFormula args.formulaCode = .ok f)
    (hreported : NoFurther args f keep d →
      reportedFigures args (d.keeping keep) = reportedFigures args d)
    (hreturns : Returns cfg args answer (d.keeping keep)) :
    Returns cfg args answer d ↔ NoFurther args f keep d := by
  have hperiod : comparisonPeriod args f (d.keeping keep) = comparisonPeriod args f d := by
    rw [comparisonPeriod, comparisonPeriod, (periodsOnly_resolvePeriods args f).2 (d.keeping keep) d rfl]
  have hkept : UniqueFacts (d.keeping keep) := hids.sublist (List.filter_sublist.map _)
  constructor
  · intro hreturns' l hl x hx hlx
    obtain ⟨a, ha⟩ := onlyFound_of_returns hcode hreturns' hl
    obtain ⟨b, hb⟩ := onlyFound_of_returns hcode hreturns (hperiod ▸ hl)
    rw [foundFacts_eq hids] at ha
    rw [foundFacts_eq hkept] at hb
    have hxa : x ∈ [a] := ha ▸ List.mem_filter.mpr ⟨hx, hlx⟩
    have hbmem : b ∈ (d.keeping keep).facts.filter l.2 := by simp [hb]
    obtain ⟨hbkept, hbl⟩ := List.mem_filter.mp hbmem
    obtain ⟨hbfacts, hkeep⟩ := List.mem_filter.mp hbkept
    have hba : b ∈ [a] := ha ▸ List.mem_filter.mpr ⟨hbfacts, hbl⟩
    rw [List.mem_singleton.mp hxa, ← List.mem_singleton.mp hba]
    exact hkeep
  · intro hnone
    obtain ⟨o, σ', hrun⟩ := hreturns
    have hsame : SameLookups args f (d.keeping keep) d := by
      refine ⟨⟨d.facts, rfl⟩, fun l hl => ?_, (hreported hnone).symm⟩
      rw [foundFacts_eq hids, foundFacts_eq hkept]
      change _ = (d.facts.filter keep).filter l.2
      rw [List.filter_filter]
      refine List.filter_congr fun x hx => ?_
      cases hlx : l.2 x with
      | false => rfl
      | true => simp [hnone l (hperiod ▸ hl) x hx hlx]
    have hlike : Solo.Like (SameLookups args f) ({ db := d.keeping keep } : Solo CalcStmt CalcDb)
        { db := d } := ⟨rfl, rfl, hsame⟩
    have hend : ((runCalculation cfg args).alone calcSchema answer { db := d }).1 =
        ((runCalculation cfg args).alone calcSchema answer { db := d.keeping keep }).1 :=
      (sameEnd_runCalculation hcode hlike).1
    rw [hrun] at hend
    exact ⟨o, ((runCalculation cfg args).alone calcSchema answer { db := d }).2,
      Prod.ext hend rfl⟩

end CalculationService

end FinanceIntelligence
