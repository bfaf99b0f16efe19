import Mathlib.Data.List.Nodup
import FinanceIntelligence.CalculationAlone

/-!
# What a part of a calculation finds

The parts of `run_calculation` that only look at the contents: what they return is a function of
what they see, and what they raise comes from there or from a callee that fails. Most of them look
only at the tables of the rest of the application.
-/

namespace FinanceIntelligence

namespace CalcProg

variable {α β : Type} {p : CalcProg α} {f : α → CalcProg β} {v : CalcDb → Except CalcExc α}
  {w : α → CalcDb → Except CalcExc β} {answer : ℕ → CalcAnswer} {σ σ' : Solo CalcStmt CalcDb}
  {d d' : CalcDb}

/-- No callee outside the model fails. -/
def Reliable (answer : ℕ → CalcAnswer) : Prop := ∀ n, (answer n).fails = false

/-- The part comes to this function of what it sees, unless a callee fails. -/
def Yields (p : CalcProg α) (v : CalcDb → Except CalcExc α) : Prop :=
  ∀ answer σ, ∃ n, p.alone calcSchema answer σ = (v (σ.view calcSchema), { σ with asked := n }) ∨
    ¬ Reliable answer ∧ ∃ x, p.alone calcSchema answer σ = (.error x, { σ with asked := n })

theorem Yields.returns (h : Yields p v) {a : α}
    (hp : p.alone calcSchema answer σ = (.ok a, σ')) :
    v (σ.view calcSchema) = .ok a ∧ ∃ n, σ' = { σ with asked := n } := by
  obtain ⟨n, h | ⟨-, x, h⟩⟩ := h answer σ
  · rw [hp, Prod.mk.injEq] at h
    exact ⟨h.1.symm, n, h.2⟩
  · rw [hp, Prod.mk.injEq] at h
    cases h.1

theorem Yields.gives (h : Yields p v) (σ : Solo CalcStmt CalcDb) (hanswer : Reliable answer) :
    ∃ n, p.alone calcSchema answer σ = (v (σ.view calcSchema), { σ with asked := n }) := by
  obtain ⟨n, h | ⟨hfails, -⟩⟩ := h answer σ
  · exact ⟨n, h⟩
  · exact absurd hanswer hfails

theorem yields_ret (a : α) : Yields (.ret a) fun _ => .ok a := fun _ σ => ⟨σ.asked, .inl rfl⟩

theorem yields_raise (x : CalcExc) : Yields (.raise x : CalcProg α) fun _ => .error x :=
  fun _ σ => ⟨σ.asked, .inl rfl⟩

theorem yields_lift (e : Except CalcExc α) : Yields (lift e) fun _ => e :=
  fun _ σ => ⟨σ.asked, .inl (alone_lift e)⟩

/-- One part after the other. -/
theorem Yields.bind (hp : Yields p v) (hf : ∀ a, Yields (f a) (w a)) :
    Yields (p.bind f) fun d => v d >>= fun a => w a d := by
  intro answer σ
  obtain ⟨n, h | ⟨hfails, x, h⟩⟩ := hp answer σ
  · cases hv : v (σ.view calcSchema) with
    | error x =>
      rw [hv] at h
      refine ⟨n, .inl ?_⟩
      dsimp only
      rw [Prog.alone_bind_error h, hv]
      rfl
    | ok a =>
      rw [hv] at h
      obtain ⟨m, hm⟩ := hf a answer { σ with asked := n }
      refine ⟨m, ?_⟩
      dsimp only
      rw [Prog.alone_bind_ok h, hv]
      exact hm
  · exact ⟨n, .inr ⟨hfails, x, Prog.alone_bind_error h⟩⟩

theorem yields_attempt : Yields attempt fun _ => .ok () := by
  intro answer σ
  refine ⟨σ.asked + 1, ?_⟩
  rw [alone_attempt]
  cases hfails : (answer σ.asked).fails with
  | false => exact .inl rfl
  | true =>
    refine .inr ⟨fun h => ?_, _, rfl⟩
    rw [h σ.asked] at hfails
    cases hfails

theorem yields_read (q : CalcDb → α) : Yields (.read fun d => .ret (q d)) fun d => .ok (q d) :=
  fun _ σ => ⟨σ.asked, .inl rfl⟩

theorem yields_select (q : CalcDb → α) : Yields (select q) fun d => .ok (q d) :=
  yields_attempt.bind fun _ => yields_read q

/-! ## Values -/

/-- What a part comes to when no callee fails. -/
def value (p : CalcProg α) (d : CalcDb) : Except CalcExc α :=
  (p.alone calcSchema (fun _ => {}) { db := d }).1

/-- The part only looks. -/
def Consults (p : CalcProg α) : Prop := Yields p (value p)

theorem reliable_default : Reliable fun _ => {} := fun _ => rfl

theorem Yields.value_eq (h : Yields p v) : value p d = v d := by
  obtain ⟨n, hn⟩ := h.gives { db := d } reliable_default
  rw [value, hn]
  rfl

theorem Yields.consults (h : Yields p v) : Consults p := by
  have hv : value p = v := funext fun d => h.value_eq
  rw [Consults, hv]
  exact h

theorem Consults.bind (hp : Consults p) (hf : ∀ a, Consults (f a)) : Consults (p.bind f) :=
  (Yields.bind hp hf).consults

theorem value_bind (hp : Consults p) :
    value (p.bind f) d = value p d >>= fun a => value (f a) d := by
  obtain ⟨n, hn⟩ := hp.gives { db := d } reliable_default
  cases hv : value p (Solo.view calcSchema { db := d }) with
  | ok a =>
    rw [hv] at hn
    rw [value, Prog.alone_bind_ok hn, show value p d = .ok a from hv]
    exact Prog.alone_const _ _ { db := d } n
  | error x =>
    rw [hv] at hn
    rw [value, Prog.alone_bind_error hn, show value p d = .error x from hv]
    rfl

/-- The parts of a program that has a value. -/
theorem value_bind_eq_ok (hp : Consults p) {b : β} (h : value (p.bind f) d = .ok b) :
    ∃ a, value p d = .ok a ∧ value (f a) d = .ok b := by
  rw [value_bind hp] at h
  cases hv : value p d with
  | ok a =>
    rw [hv] at h
    exact ⟨a, rfl, h⟩
  | error x =>
    rw [hv] at h
    cases h

@[simp] theorem consults_ret (a : α) : Consults (.ret a) := (yields_ret a).consults

@[simp] theorem consults_raise (x : CalcExc) : Consults (.raise x : CalcProg α) :=
  (yields_raise x).consults

@[simp] theorem consults_lift (e : Except CalcExc α) : Consults (lift e) :=
  (yields_lift e).consults

@[simp] theorem consults_select (q : CalcDb → α) : Consults (select q) :=
  (yields_select q).consults

@[simp] theorem value_ret (a : α) : value (.ret a : CalcProg α) d = .ok a := rfl

@[simp] theorem value_raise (x : CalcExc) : value (.raise x : CalcProg α) d = .error x := rfl

@[simp] theorem value_lift (e : Except CalcExc α) : value (lift e) d = e := (yields_lift e).value_eq

@[simp] theorem value_select (q : CalcDb → α) : value (select q) d = .ok (q d) :=
  (yields_select q).value_eq

/-- At most one row. -/
def oneOrNone : List α → Except CalcExc (Option α)
  | [] => .ok none
  | [a] => .ok (some a)
  | _ => .error .multipleResultsFound

@[simp] theorem consults_scalarOneOrNone (l : List α) : Consults (scalarOneOrNone l) :=
  match l with
  | [] => consults_ret _
  | [_] => consults_ret _
  | _ :: _ :: _ => consults_raise _

@[simp] theorem value_scalarOneOrNone (l : List α) : value (scalarOneOrNone l) d = oneOrNone l :=
  match l with
  | [] => rfl
  | [_] => rfl
  | _ :: _ :: _ => rfl

@[simp] theorem consults_selectOne (q : CalcDb → List α) : Consults (selectOne q) :=
  (consults_select q).bind consults_scalarOneOrNone

@[simp] theorem value_selectOne (q : CalcDb → List α) :
    value (selectOne q) d = oneOrNone (q d) := by
  rw [selectOne, value_bind (consults_select q), value_select]
  exact value_scalarOneOrNone _

theorem yields_selectOne (q : CalcDb → List α) : Yields (selectOne q) fun d => oneOrNone (q d) := by
  have h := consults_selectOne q
  simp only [Consults] at h
  rwa [show value (selectOne q) = fun d => oneOrNone (q d) from
    funext fun d => value_selectOne q] at h

/-! ## Facts -/

/-- The facts with these ids that are looked for. -/
def lockedFacts (q : FinancialFact → Bool) (ids : List Uuid) (d : CalcDb) : List FinancialFact :=
  ids.flatMap fun id => ((d.tables.reviewed.fact id).filter q).toList

theorem alone_lockFacts (q : FinancialFact → Bool) (ids : List Uuid) :
    (lockFacts q ids).alone calcSchema answer σ =
      (.ok (lockedFacts q ids (σ.view calcSchema)), σ) := by
  induction ids with
  | nil => rfl
  | cons id ids ih =>
    simp only [lockFacts, Prog.alone, lockedFacts, List.flatMap_cons]
    cases hfact : (σ.view calcSchema).tables.reviewed.fact id with
    | none => simpa [lockedFacts] using ih
    | some x =>
      cases hq : q x with
      | false => simpa [lockedFacts, hq, Option.filter] using ih
      | true =>
        simp only [Option.any_some, hq, if_true, Prog.alone, hfact]
        rw [Prog.alone_bind_ok ih]
        simp [lockedFacts, hq, Option.filter]

/-- The facts that a locking query finds. -/
def foundFacts (q : FinancialFact → Bool) (d : CalcDb) : List FinancialFact :=
  lockedFacts q ((d.facts.filter q).map (·.id)) d

theorem yields_lockFacts (q : FinancialFact → Bool) (ids : List Uuid) :
    Yields (lockFacts q ids) fun d => .ok (lockedFacts q ids d) :=
  fun _ σ => ⟨σ.asked, .inl (alone_lockFacts q ids)⟩

theorem yields_selectFact (q : FinancialFact → Bool) :
    Yields (selectFact q) fun d => oneOrNone (foundFacts q d) := by
  have h := (yields_select fun d => (d.facts.filter q).map (·.id)).bind fun ids =>
    (yields_lockFacts q ids).bind fun l => consults_scalarOneOrNone l
  simp only [value_scalarOneOrNone] at h
  exact h

@[simp] theorem consults_selectFact (q : FinancialFact → Bool) : Consults (selectFact q) :=
  (yields_selectFact q).consults

@[simp] theorem value_selectFact (q : FinancialFact → Bool) :
    value (selectFact q) d = oneOrNone (foundFacts q d) := (yields_selectFact q).value_eq

/-- The facts have an id each. -/
def UniqueFacts (d : CalcDb) : Prop := (d.facts.map (·.id)).Nodup

/-- **Locking loses nothing**: what is found are the facts that the query is about. -/
theorem foundFacts_eq (h : UniqueFacts d) (q : FinancialFact → Bool) :
    foundFacts q d = d.facts.filter q := by
  have hfact : ∀ x ∈ d.facts.filter q,
      ((d.tables.reviewed.fact x.id).filter q).toList = [x] := by
    intro x hx
    obtain ⟨hmem, hq⟩ := List.mem_filter.mp hx
    have hfind : d.tables.reviewed.fact x.id = some x := by
      cases hy : d.tables.reviewed.fact x.id with
      | none => exact absurd (List.find?_eq_none.mp hy x hmem) (by simp)
      | some y =>
        have hid : y.id = x.id := by
          have hbeq : (y.id == x.id) = true :=
            List.find?_some (p := fun f : FinancialFact => f.id == x.id) hy
          exact beq_iff_eq.mp hbeq
        exact congrArg some (List.inj_on_of_nodup_map h (List.mem_of_find?_eq_some hy) hmem hid)
    simp [hfind, Option.filter, hq]
  rw [foundFacts, lockedFacts, List.flatMap_map]
  generalize d.facts.filter q = l at hfact
  induction l with
  | nil => rfl
  | cons x l ih =>
    rw [List.flatMap_cons, hfact x List.mem_cons_self,
      ih fun y hy => hfact y (List.mem_cons_of_mem _ hy), List.singleton_append]

/-! ## What a value depends on -/

variable {γ : Type} {K : CalcDb → γ}

/-- The part looks only at this part of the contents. -/
def DependsOn (K : CalcDb → γ) (p : CalcProg α) : Prop :=
  Consults p ∧ ∀ d d' : CalcDb, K d = K d' → value p d = value p d'

/-- The part looks only at the tables of the rest of the application. -/
abbrev TablesOnly (p : CalcProg α) : Prop := DependsOn (fun d => d.tables) p

theorem DependsOn.bind (hp : DependsOn K p) (hf : ∀ a, DependsOn K (f a)) :
    DependsOn K (p.bind f) := by
  refine ⟨hp.1.bind fun a => (hf a).1, fun d d' h => ?_⟩
  rw [value_bind hp.1, value_bind hp.1, hp.2 d d' h]
  exact congrArg _ (funext fun a => (hf a).2 d d' h)

theorem dependsOn_ret (a : α) : DependsOn K (.ret a) := ⟨consults_ret a, fun _ _ _ => rfl⟩

theorem dependsOn_raise (x : CalcExc) : DependsOn K (.raise x : CalcProg α) :=
  ⟨consults_raise x, fun _ _ _ => rfl⟩

theorem dependsOn_lift (e : Except CalcExc α) : DependsOn K (lift e) := by
  cases e with
  | ok a => exact dependsOn_ret a
  | error x => exact dependsOn_raise x

theorem dependsOn_select {q : CalcDb → α} (hq : ∀ d d' : CalcDb, K d = K d' → q d = q d') :
    DependsOn K (select q) :=
  ⟨consults_select _, fun d d' h => by simp only [value_select, hq d d' h]⟩

theorem dependsOn_scalarOneOrNone (l : List α) : DependsOn K (scalarOneOrNone l) :=
  ⟨consults_scalarOneOrNone l, fun _ _ _ => by simp only [value_scalarOneOrNone]⟩

theorem dependsOn_selectOne {q : CalcDb → List α}
    (hq : ∀ d d' : CalcDb, K d = K d' → q d = q d') : DependsOn K (selectOne q) :=
  (dependsOn_select hq).bind dependsOn_scalarOneOrNone

theorem tablesOnly_selectFact (q : FinancialFact → Bool) : TablesOnly (selectFact q) := by
  refine ⟨consults_selectFact q, fun d d' h => ?_⟩
  simp only [value_selectFact, foundFacts, lockedFacts, CalcDb.facts, h]

end CalcProg

namespace CalculationService

open CalcProg

variable {cfg : CalcConfig}

theorem tablesOnly_verifyFormula (args : RunArgs) : TablesOnly (verifyFormula cfg args) := by
  refine (dependsOn_lift _).bind fun f =>
    (dependsOn_selectOne fun _ _ h => by simp only [h]).bind fun found => ?_
  cases found with
  | none => exact dependsOn_raise _
  | some definition => exact (dependsOn_lift _).bind fun _ => dependsOn_ret _

theorem formula_of_value {args : RunArgs} {v : VerifiedFormula} {d : CalcDb}
    (h : value (verifyFormula cfg args) d = .ok v) :
    Formula.getFormula args.formulaCode = .ok v.formula := formula_of_verifyFormula (Prod.ext h rfl)

/-- The part looks only at the periods. -/
abbrev PeriodsOnly {α : Type} (p : CalcProg α) : Prop := DependsOn (fun d => d.tables.periods) p

theorem periodsOnly_resolveComparison (args : RunArgs) (requirement : ComparisonRequirement)
    (rep : PeriodRow) : PeriodsOnly (resolveComparison args requirement rep) := by
  have hfound (p : Option PeriodRow) : PeriodsOnly (found p) := by
    cases p with
    | none => exact dependsOn_raise _
    | some p => exact dependsOn_ret p
  have hperiod (id : Uuid) : PeriodsOnly (do
      let comp ← (selectPeriod args.organizationId id).bind found
      if comp.periodType ≠ rep.periodType then .raise (.value "PERIOD_TYPE_MISMATCH")
      else return comp : CalcProg PeriodRow) := by
    refine ((dependsOn_selectOne fun _ _ h => by simp only [h]).bind hfound).bind fun comp => ?_
    split
    · exact dependsOn_raise _
    · exact dependsOn_ret _
  unfold resolveComparison
  split
  · exact dependsOn_raise _
  · exact dependsOn_raise _
  · exact (dependsOn_select fun _ _ h => by simp only [previousPeriod, h]).bind hfound
  · exact (dependsOn_select fun _ _ h => by simp only [previousYearSamePeriod, h]).bind hfound
  · exact hperiod _

theorem periodsOnly_resolvePeriods (args : RunArgs) (f : Formula) :
    PeriodsOnly (resolvePeriods args f) := by
  refine (dependsOn_selectOne fun _ _ h => by simp only [h]).bind fun rep => ?_
  cases rep with
  | none => exact dependsOn_raise _
  | some rep =>
    dsimp only
    split
    · exact dependsOn_ret _
    · exact (periodsOnly_resolveComparison _ _ _).bind fun _ => dependsOn_ret _
    · refine (periodsOnly_resolveComparison _ _ _).bind fun comp => ?_
      split
      · exact dependsOn_raise _
      · exact dependsOn_ret _

theorem tablesOnly_resolvePeriods (args : RunArgs) (f : Formula) :
    TablesOnly (resolvePeriods args f) :=
  ⟨(periodsOnly_resolvePeriods args f).1, fun d d' h =>
    (periodsOnly_resolvePeriods args f).2 d d' (congrArg _ h)⟩

theorem tablesOnly_selectFacts (args : RunArgs) (f : Formula) (comp : Option Uuid) :
    TablesOnly (selectFacts args f comp) := by
  have htwo (q₁ q₂ : FinancialFact → Bool)
      {next : Option FinancialFact → Option FinancialFact → CalcProg FactObjects}
      (hnext : ∀ a b, TablesOnly (next a b)) : TablesOnly (do
      let a ← selectFact q₁
      let b ← selectFact q₂
      next a b) :=
    (tablesOnly_selectFact _).bind fun a => (tablesOnly_selectFact _).bind fun b => hnext a b
  have hthree (q₁ q₂ q₃ : FinancialFact → Bool)
      {next : Option FinancialFact → Option FinancialFact → Option FinancialFact →
        CalcProg FactObjects}
      (hnext : ∀ a b c, TablesOnly (next a b c)) : TablesOnly (do
      let a ← selectFact q₁
      let b ← selectFact q₂
      let c ← selectFact q₃
      next a b c) :=
    (tablesOnly_selectFact _).bind fun a => (tablesOnly_selectFact _).bind fun b =>
      (tablesOnly_selectFact _).bind fun c => hnext a b c
  cases f with
  | loanToDepositRatio | nplRatio | growthRate =>
    refine htwo _ _ fun a b => ?_
    split
    · exact dependsOn_ret _
    · exact dependsOn_raise _
  | returnOnAssets | returnOnEquity =>
    refine hthree _ _ _ fun inc beg fin => ?_
    split
    · split
      · exact dependsOn_raise _
      · exact dependsOn_ret _
    · exact dependsOn_raise _

theorem tablesOnly_selectInputs (args : RunArgs) (f : Formula) :
    TablesOnly (selectInputs args f) := by
  refine (tablesOnly_resolvePeriods _ _).bind fun periods => (dependsOn_lift _).bind fun factor =>
    (tablesOnly_selectFacts _ _ _).bind fun facts => ?_
  split
  · exact dependsOn_raise _
  · exact dependsOn_ret _

/-! ## The calculation of an execution -/

/-- What is returned for the calculation with a hash, if there is one. -/
def existingOutcome (organizationId : Uuid) (hash : String) (d : CalcDb) :
    Except CalcExc (Option RunOutcome) := do
  match ← oneOrNone (d.executed organizationId hash) with
  | none => return none
  | some calculation =>
    let reconciliation ←
      oneOrNone (d.reconciliations.filter fun r => r.calculationId == calculation.id)
    return some ⟨calculation, d.inputs.filter fun i => i.calculationId == calculation.id,
      reconciliation⟩

theorem yields_existing (organizationId : Uuid) (hash : String) :
    Yields (existing organizationId hash) (existingOutcome organizationId hash) := by
  refine (yields_selectOne _).bind fun found => ?_
  cases found with
  | none => exact yields_ret _
  | some calculation =>
    exact (yields_select _).bind fun inputs => (yields_selectOne _).bind fun reconciliation =>
      yields_ret _

end CalculationService

end FinanceIntelligence
