import FinanceIntelligence.CalculationValues

/-!
# What a run leaves

A run of a calculation that returns, part by part: the request is there, and either the calculation
was there already or **a calculation was added**, with its attempt, its inputs, which are snapshots
of the selected facts, and its reconciliation.

`Completes` collects what the second case says, field by field. The modules that speak about what
a run has used or shown start from it and never look at the program again.
-/

namespace FinanceIntelligence

open CalcProg CalculationService

variable {cfg : CalcConfig} {args : RunArgs} {α : Type} {answer : ℕ → CalcAnswer}
  {σ σ' τ : Solo CalcStmt CalcDb} {o : RunOutcome}

/-! ## Statements -/

namespace CalcProg

/-- The contents with a statement that is pending. -/
theorem view_pending (s : CalcStmt) :
    Solo.view calcSchema { σ with pending := σ.pending ++ [s] } =
      s.apply (σ.view calcSchema) := by
  simp [Solo.view, calcSchema]

theorem view_asked (n : ℕ) :
    Solo.view calcSchema { σ with asked := n } = σ.view calcSchema := rfl

/-- A row that is inserted fits its columns. -/
theorem fits_of_check {s : CalcStmt} {d : CalcDb} (h : s.check d = true) : s.fits = true := by
  cases s with
  | insertRequest | insertAttempt | insertEvidence => rfl
  | insertCalculation | insertInput | insertReconciliation =>
    simp only [CalcStmt.check, Bool.and_eq_true] at h
    tauto

/-- A statement that is executed. -/
theorem alone_execute_eq_ok {s : CalcStmt}
    (h : (execute s).alone calcSchema answer σ = (.ok (), σ')) :
    s.check (σ.view calcSchema) = true ∧
      σ'.view calcSchema = s.apply (σ.view calcSchema) := by
  obtain ⟨_, σ₁, hattempt, h⟩ := Prog.alone_bind_eq_ok h
  have hview := reads_attempt.view hattempt
  simp only [Prog.alone] at h
  cases hcheck : calcSchema.check s (σ₁.view calcSchema) with
  | true =>
    rw [hcheck] at h
    cases h
    rw [view_pending, hview]
    rw [hview] at hcheck
    exact ⟨hcheck, rfl⟩
  | false =>
    rw [hcheck] at h
    cases h

/-- Statements that are executed. -/
theorem alone_executeAll_eq_ok {l : List CalcStmt}
    (h : (executeAll l).alone calcSchema answer σ = (.ok (), σ')) :
    σ'.view calcSchema = calcSchema.view l (σ.view calcSchema) ∧
      ∀ s ∈ l, s.fits = true := by
  induction l generalizing σ with
  | nil =>
    cases h
    exact ⟨rfl, fun _ hs => absurd hs List.not_mem_nil⟩
  | cons s l ih =>
    obtain ⟨_, σ₁, hs, h⟩ := Prog.alone_bind_eq_ok h
    obtain ⟨hcheck, hview⟩ := alone_execute_eq_ok hs
    obtain ⟨hrest, hfits⟩ := ih h
    refine ⟨by rw [hrest, hview]; rfl, fun s' hs' => ?_⟩
    cases hs' with
    | head => exact fits_of_check hcheck
    | tail _ hs' => exact hfits s' hs'

/-- What is committed was seen before. -/
theorem alone_commit_eq_ok (h : commit.alone calcSchema answer σ = (.ok (), σ')) :
    σ'.view calcSchema = σ.view calcSchema := by
  obtain ⟨_, σ₁, hattempt, h⟩ := Prog.alone_bind_eq_ok h
  rw [← reads_attempt.view hattempt]
  simp only [Prog.alone] at h
  split at h
  · rename_i d hreplay
    cases h
    exact calcSchema.replay_eq_ok hreplay
  · cases h

/-- A part that returns needs no handler. -/
theorem alone_tryCatch_ok {p : CalcProg α} {f : CalcExc → CalcProg α} {a : α}
    (h : p.alone calcSchema answer σ = (.ok a, σ')) :
    (p.tryCatch f).alone calcSchema answer σ = (.ok a, σ') := by
  rw [Prog.alone_tryCatch, h]

/-- The row of a request, locked. -/
theorem yields_lockRequest (organizationId : Uuid) (fingerprint : String) :
    Yields (lockRequest organizationId fingerprint)
      fun d => .ok (d.request organizationId fingerprint) := by
  have hlocked : ∀ (found : Bool) (answer : ℕ → CalcAnswer) (σ : Solo CalcStmt CalcDb),
      ((σ.view calcSchema).request organizationId fingerprint).isSome = found →
      (if found then .read fun d => .ret (d.request organizationId fingerprint)
        else .ret none : CalcProg (Option CalculationRequest)).alone calcSchema answer σ =
        (.ok ((σ.view calcSchema).request organizationId fingerprint), σ) := by
    intro found answer σ hfound
    cases found with
    | true => rfl
    | false =>
      rw [Option.isSome_eq_false_iff, Option.isNone_iff_eq_none] at hfound
      rw [hfound]
      rfl
  have hlock : Yields (.lock (.request organizationId fingerprint)
      (fun d => (d.request organizationId fingerprint).isSome) fun found =>
        if found then .read fun d => .ret (d.request organizationId fingerprint) else .ret none)
      fun d => .ok (d.request organizationId fingerprint) :=
    fun answer σ => ⟨σ.asked, .inl (hlocked _ answer σ rfl)⟩
  exact yields_attempt.bind fun _ => hlock

end CalcProg

/-! ## What statements leave -/

/-- The reconciliation that a statement adds. -/
def CalcStmt.reconciliations : CalcStmt → List CalculationReconciliation
  | .insertReconciliation r => r.stored.toList
  | _ => []

/-- No statement changes the tables of the rest of the application. -/
@[simp] theorem tables_view (l : List CalcStmt) (d : CalcDb) :
    (calcSchema.view l d).tables = d.tables := by
  induction l generalizing d with
  | nil => rfl
  | cons s l ih =>
    rw [Schema.view_cons, ih]
    cases s <;> rfl

/-- The reconciliations are those that were added. -/
theorem reconciliations_view (l : List CalcStmt) (d : CalcDb) :
    (calcSchema.view l d).reconciliations = d.reconciliations ++ l.flatMap (·.reconciliations) := by
  induction l generalizing d with
  | nil => simp
  | cons s l ih =>
    rw [Schema.view_cons, ih, List.flatMap_cons, ← List.append_assoc]
    congr 1
    cases s <;> simp [calcSchema, CalcStmt.apply, CalcStmt.reconciliations]

/-! ## The parts of a run -/

namespace CalculationService

/-- **The parts of a run that returns.** -/
theorem runCalculation_eq_ok
    (h : (runCalculation cfg args).alone calcSchema answer σ = (.ok o, σ')) :
    ∃ v s σ₁, value (verifyFormula cfg args) (σ.view calcSchema) = .ok v ∧
      value (selectInputs args v.formula) (σ.view calcSchema) = .ok s ∧
      σ₁.view calcSchema = σ.view calcSchema ∧
      (executeRun cfg args v s (cfg.executionHash (executionPayload args v s))).alone
        calcSchema answer σ₁ = (.ok o, σ') := by
  obtain ⟨_, σ₁, htenant, h⟩ := Prog.alone_bind_eq_ok h
  obtain ⟨_, σ₂, hevent, h⟩ := Prog.alone_bind_eq_ok h
  obtain ⟨v, σ₃, hv, h⟩ := Prog.alone_bind_eq_ok h
  obtain ⟨s, σ₄, hs, h⟩ := Prog.alone_bind_eq_ok h
  -- a handler raises, so that each part has returned by itself
  have hv := Prog.alone_of_tryCatch (fun _ _ => raises_handle _ _ _ _) hv
  have hs := Prog.alone_of_tryCatch (fun _ _ => raises_handle _ _ _ _) hs
  have h := Prog.alone_of_tryCatch (fun _ _ => raises_handle _ _ _ _) h
  obtain ⟨hvalue, n, rfl⟩ := (tablesOnly_verifyFormula args).1.returns hv
  obtain ⟨hselected, m, rfl⟩ := (tablesOnly_selectInputs args v.formula).1.returns hs
  have hview : σ₂.view calcSchema = σ.view calcSchema := by
    rw [reads_attempt.view hevent, reads_attempt.view htenant]
  rw [hview] at hvalue
  rw [view_asked, hview] at hselected
  exact ⟨v, s, _, hvalue, hselected, by exact hview, h⟩

/-- The request of a run is there when its row is locked. -/
theorem resolveRequest_eq_ok {comp : Option Uuid} {r : CalculationRequest}
    (h : (resolveRequest cfg args comp).alone calcSchema answer σ = (.ok r, σ')) :
    ∃ new : List CalculationRequest,
      σ'.view calcSchema = calcSchema.view (new.map .insertRequest) (σ.view calcSchema) ∧
      ((σ'.view calcSchema).request args.organizationId (fingerprint cfg args)).isSome = true := by
  obtain ⟨first, σ₁, hfirst, h⟩ := Prog.alone_bind_eq_ok h
  obtain ⟨hvalue, n, rfl⟩ := (yields_lockRequest _ _).returns hfirst
  have hfound := Except.ok.inj hvalue
  cases first with
  | some r =>
    cases h
    exact ⟨[], rfl, by rw [view_asked, hfound]; rfl⟩
  | none =>
    obtain ⟨id, σ₂, hid, h⟩ := Prog.alone_bind_eq_ok h
    cases hid
    obtain ⟨_, σ₃, hattempt, h⟩ := Prog.alone_bind_eq_ok h
    have hview := reads_attempt.view hattempt
    obtain ⟨inserted, σ₄, hinserted, h⟩ := Prog.alone_bind_eq_ok h
    simp only [Prog.alone] at hinserted
    split at hinserted
    · cases hinserted
      cases h
      refine ⟨[_], by rw [view_pending, hview]; rfl, ?_⟩
      rw [view_pending, hview]
      simp [CalcStmt.apply, CalcDb.request, List.find?_append]
    · -- the row is still not there
      cases hinserted
      obtain ⟨second, σ₅, hsecond, h⟩ := Prog.alone_bind_eq_ok h
      obtain ⟨hvalue, m, rfl⟩ := (yields_lockRequest _ _).returns hsecond
      have hsecond := Except.ok.inj hvalue
      rw [hview, view_asked, view_asked, hfound] at hsecond
      cases hsecond
      cases h

/-- The input is a snapshot of the fact. -/
structure IsSnapshot (i : CalculationInput) (x : InputRole × FinancialFact) : Prop where
  inputRole : i.inputRole = x.1
  financialFactId : i.financialFactId = x.2.id
  metricCode : i.metricCode = x.2.metricCode
  normalizedValue : i.normalizedValueSnapshot = x.2.normalizedValue
  currency : i.currencySnapshot = x.2.currency
  unit : i.unitSnapshot = x.2.unit
  scale : i.scaleSnapshot = x.2.scale
  reportingBasis : i.reportingBasisSnapshot = x.2.reportingBasis
  reportingPeriodId : i.reportingPeriodIdSnapshot = x.2.reportingPeriodId

/-- The inputs are snapshots of the facts, in their order. -/
theorem collectInputs_eq_ok {org calcId : Uuid} {factor : ℚ} {facts : FactObjects}
    {collected : List CalculationInput × List CalculationEvidence}
    (h : (collectInputs cfg org calcId factor facts).alone calcSchema answer σ =
      (.ok collected, σ')) : List.Forall₂ IsSnapshot collected.1 facts := by
  induction facts generalizing σ collected with
  | nil =>
    cases h
    exact .nil
  | cons x facts ih =>
    obtain ⟨evidence, σ₁, hevidence, h⟩ := Prog.alone_bind_eq_ok h
    dsimp only at h
    split at h
    · cases h
    · obtain ⟨id, σ₂, hid, h⟩ := Prog.alone_bind_eq_ok h
      obtain ⟨rows, σ₃, hrows, h⟩ := Prog.alone_bind_eq_ok h
      obtain ⟨rest, σ₄, hrest, h⟩ := Prog.alone_bind_eq_ok h
      cases h
      exact .cons ⟨rfl, rfl, rfl, rfl, rfl, rfl, rfl, rfl, rfl⟩ (ih hrest)

/-- The statements of the lineage. -/
def lineage (o : RunOutcome) (evidences : List CalculationEvidence) : List CalcStmt :=
  evidences.map .insertEvidence ++ o.inputs.map .insertInput ++
    o.reconciliation.toList.map .insertReconciliation

theorem isLineage_lineage (o : RunOutcome) (evidences : List CalculationEvidence) :
    ∀ s ∈ lineage o evidences, s.isLineage = true := by
  intro s hs
  simp only [lineage, List.mem_append, List.mem_map] at hs
  obtain (⟨_, -, rfl⟩ | ⟨_, -, rfl⟩) | ⟨_, -, rfl⟩ := hs <;> rfl

theorem reconciliations_lineage (o : RunOutcome) (evidences : List CalculationEvidence) :
    (lineage o evidences).flatMap (·.reconciliations) =
      (o.reconciliation.bind (·.stored)).toList := by
  have hevidences : (evidences.map CalcStmt.insertEvidence).flatMap (·.reconciliations) = [] := by
    simp [List.flatMap_eq_nil_iff, CalcStmt.reconciliations]
  have hinputs : (o.inputs.map CalcStmt.insertInput).flatMap (·.reconciliations) = [] := by
    simp [List.flatMap_eq_nil_iff, CalcStmt.reconciliations]
  rw [lineage, List.flatMap_append, List.flatMap_append, hevidences, hinputs]
  cases o.reconciliation <;> simp [CalcStmt.reconciliations]

/-- **What completes a run.** -/
structure Completes (args : RunArgs) (e : Execution) (o : RunOutcome) (d d' : CalcDb) : Prop where
  /-- the formula has a result, which is compared with the figure that was reported -/
  result : ∃ result calcId attemptId number id source,
    e.verified.formula.calculate e.selected.facts.input e.selected.annualizationFactor =
      .ok result ∧
    oneOrNone (reportedFigures args d) = .ok source ∧
    o.calculation = calculationOf args e result calcId attemptId number ∧
    o.reconciliation = source.map (reconciliationOf args e.verified.definition calcId id result)
  /-- the inputs are the selected facts -/
  inputs : List.Forall₂ IsSnapshot o.inputs e.selected.facts
  /-- the rows are added -/
  rows : ∃ attempt evidences, d' = calcSchema.view (.insertAttempt attempt ::
      .insertCalculation o.calculation :: lineage o evidences) d
  /-- the calculation has an id of its own -/
  fresh : ∀ c ∈ d.calculations, c.id ≠ o.calculation.id
  /-- the columns can hold the calculation -/
  fits : o.calculation.stored.isSome = true
  reconciliationFits : ∀ r ∈ o.reconciliation, r.stored.isSome = true

theorem addLineage_eq_ok {e : Execution} {result : FormulaResult} {calculation : Calculation}
    {inputs : List CalculationInput} {evidences : List CalculationEvidence}
    (h : (addLineage args e result calculation inputs evidences).alone calcSchema answer σ =
      (.ok o, σ')) :
    ∃ id source, oneOrNone (reportedFigures args (σ.view calcSchema)) = .ok source ∧
      o = ⟨calculation, inputs, source.map
        (reconciliationOf args e.verified.definition calculation.id id result)⟩ ∧
      σ'.view calcSchema = calcSchema.view (lineage o evidences) (σ.view calcSchema) ∧
      ∀ s ∈ lineage o evidences, s.fits = true := by
  obtain ⟨source, σ₁, hsource, h⟩ := Prog.alone_bind_eq_ok h
  obtain ⟨hvalue, n, rfl⟩ := (yields_selectOne _).returns hsource
  obtain ⟨id, σ₂, hview, h⟩ : ∃ id σ₂, σ₂.view calcSchema = σ.view calcSchema ∧
      (do
        let reconciliation := source.map
          (reconciliationOf args e.verified.definition calculation.id id result)
        executeAll (evidences.map .insertEvidence ++ inputs.map .insertInput ++
          reconciliation.toList.map .insertReconciliation)
        recordEvent
        commit
        return ⟨calculation, inputs, reconciliation⟩ : CalcProg RunOutcome).alone calcSchema answer
          σ₂ = (.ok o, σ') := by
    cases source with
    | none => exact ⟨0, { σ with asked := n }, rfl, h⟩
    | some source => exact ⟨(answer n).uuid, { σ with asked := n + 1 }, rfl, h⟩
  obtain ⟨_, σ₃, hall, h⟩ := Prog.alone_bind_eq_ok h
  obtain ⟨_, σ₄, hevent, h⟩ := Prog.alone_bind_eq_ok h
  obtain ⟨_, σ₅, hcommit, h⟩ := Prog.alone_bind_eq_ok h
  cases h
  obtain ⟨hrows, hfits⟩ := alone_executeAll_eq_ok hall
  refine ⟨id, source, hvalue, rfl, ?_, hfits⟩
  rw [alone_commit_eq_ok hcommit, reads_attempt.view hevent, hrows, hview]
  rfl

/-- What is returned for the one calculation with the hash. -/
theorem existingOutcome_of_executed {org : Uuid} {hash : String} {d : CalcDb} {c : Calculation}
    (h : d.executed org hash = [c]) : existingOutcome org hash d =
      (oneOrNone (d.reconciliations.filter fun r => r.calculationId == c.id)).map fun r =>
        some ⟨c, d.inputs.filter fun i => i.calculationId == c.id, r⟩ := by
  rw [existingOutcome, h]
  rfl

/-- The calculation that is returned is the one with the hash, if there is one. -/
theorem executed_of_existingOutcome {org : Uuid} {hash : String} {d : CalcDb}
    {found : Option RunOutcome} (h : existingOutcome org hash d = .ok found) :
    d.executed org hash = (found.map (·.calculation)).toList := by
  match hexecuted : d.executed org hash with
  | [] =>
    rw [existingOutcome, hexecuted] at h
    cases h
    rfl
  | [c] =>
    rw [existingOutcome_of_executed hexecuted] at h
    cases hr : oneOrNone (d.reconciliations.filter fun r => r.calculationId == c.id) with
    | ok r =>
      rw [hr] at h
      cases h
      rfl
    | error x =>
      rw [hr] at h
      cases h
  | _ :: _ :: _ =>
    rw [existingOutcome, hexecuted] at h
    cases h

theorem complete_eq_ok {e : Execution} {calcId : Uuid} {inputs : List CalculationInput}
    {evidences : List CalculationEvidence}
    (hnone : (σ.view calcSchema).executed args.organizationId e.hash = [])
    (hinputs : List.Forall₂ IsSnapshot inputs e.selected.facts)
    (h : (complete args e calcId inputs evidences).alone calcSchema answer σ = (.ok o, σ')) :
    Completes args e o (σ.view calcSchema) (σ'.view calcSchema) := by
  obtain ⟨result, σ₁, hresult, h⟩ := Prog.alone_bind_eq_ok h
  rw [alone_lift, Prod.mk.injEq] at hresult
  obtain ⟨hresult, rfl⟩ := hresult
  obtain ⟨last, σ₂, hlast, h⟩ := Prog.alone_bind_eq_ok h
  obtain ⟨-, n, rfl⟩ := (yields_select _).returns hlast
  obtain ⟨attemptId, σ₃, hid, h⟩ := Prog.alone_bind_eq_ok h
  cases hid
  obtain ⟨_, σ₄, hattempt, h⟩ := Prog.alone_bind_eq_ok h
  obtain ⟨-, hview⟩ := alone_execute_eq_ok hattempt
  obtain ⟨_, σ₅, hcallee, h⟩ := Prog.alone_bind_eq_ok h
  rw [← reads_attempt.view hcallee] at hview
  obtain ⟨inserted, σ₆, hinserted, h⟩ := Prog.alone_bind_eq_ok h
  simp only [Prog.alone] at hinserted
  split at hinserted
  · rename_i hcheck
    cases hinserted
    obtain ⟨id, source, hsource, rfl, hrows, hfits⟩ := addLineage_eq_ok h
    rw [view_pending, hview] at hsource hrows
    rw [hview] at hcheck
    have hparts := hcheck
    simp only [calcSchema, CalcStmt.check, CalcStmt.fits, Bool.and_eq_true, List.all_eq_true,
      bne_iff_ne] at hparts
    exact {
      result := ⟨result, calcId, _, _, id, source, hresult, hsource, rfl, rfl⟩
      inputs := hinputs
      rows := ⟨_, evidences, hrows⟩
      fresh := fun c hc => (hparts.1.2 c hc).1
      fits := hparts.1.1.1
      reconciliationFits := fun r hr => hfits (.insertReconciliation r)
        (List.mem_append_right _ (List.mem_map_of_mem (Option.mem_toList.mpr hr))) }
  · -- a calculation with the hash would have been found before
    cases hinserted
    rw [if_neg Bool.false_ne_true] at h
    split at h
    · cases h
    · obtain ⟨found, σ₇, hfound, h⟩ := Prog.alone_bind_eq_ok h
      obtain ⟨hvalue, m, rfl⟩ := (yields_existing _ _).returns hfound
      have hexecuted := executed_of_existingOutcome hvalue
      rw [hview] at hexecuted
      cases found with
      | none => cases h
      | some winner => cases hexecuted.symm.trans hnone

/-- **What a run leaves**: its request is there. Either there was a calculation with the hash,
which is returned, or one was added. -/
theorem executeRun_eq_ok {v : VerifiedFormula} {s : SelectedInputs} {hash : String}
    (h : (executeRun cfg args v s hash).alone calcSchema answer σ = (.ok o, σ')) :
    ∃ (new : List CalculationRequest) (d : CalcDb),
      d = calcSchema.view (new.map .insertRequest) (σ.view calcSchema) ∧
      (d.request args.organizationId (fingerprint cfg args)).isSome = true ∧
      (existingOutcome args.organizationId hash d = .ok (some o) ∧ σ'.view calcSchema = d ∨
        d.executed args.organizationId hash = [] ∧
        ∃ request, Completes args ⟨v, s, hash, request⟩ o d (σ'.view calcSchema)) := by
  obtain ⟨request, σ₁, hrequest, h⟩ := Prog.alone_bind_eq_ok h
  obtain ⟨new, hview, hsome⟩ := resolveRequest_eq_ok hrequest
  refine ⟨new, σ₁.view calcSchema, hview, hsome, ?_⟩
  obtain ⟨found, σ₂, hfound, h⟩ := Prog.alone_bind_eq_ok h
  obtain ⟨hvalue, n, rfl⟩ := (yields_existing _ _).returns hfound
  cases found with
  | some outcome =>
    cases h
    exact .inl ⟨hvalue, rfl⟩
  | none =>
    have hnone := executed_of_existingOutcome hvalue
    obtain ⟨calcId, σ₃, hid, h⟩ := Prog.alone_bind_eq_ok h
    cases hid
    obtain ⟨collected, σ₄, hcollected, h⟩ := Prog.alone_bind_eq_ok h
    have hsame := (reads_collectInputs _ _ _ _).view hcollected
    have hcomplete := complete_eq_ok (e := ⟨v, s, hash, request⟩) (by rw [hsame]; exact hnone)
      (collectInputs_eq_ok hcollected) h
    rw [hsame] at hcomplete
    exact .inr ⟨hnone, request, hcomplete⟩

/-- **A run whose calculation is there** returns it and adds nothing. -/
theorem runCalculation_existing (hanswer : Reliable answer) {v : VerifiedFormula}
    {s : SelectedInputs} (hv : value (verifyFormula cfg args) (τ.view calcSchema) = .ok v)
    (hs : value (selectInputs args v.formula) (τ.view calcSchema) = .ok s)
    (hrequest : ((τ.view calcSchema).request args.organizationId
      (fingerprint cfg args)).isSome = true)
    (hexisting : existingOutcome args.organizationId
      (cfg.executionHash (executionPayload args v s)) (τ.view calcSchema) = .ok (some o)) :
    ∃ n, (runCalculation cfg args).alone calcSchema answer τ = (.ok o, { τ with asked := n }) := by
  obtain ⟨n₁, h₁⟩ := yields_attempt.gives τ hanswer
  obtain ⟨n₂, h₂⟩ := yields_attempt.gives { τ with asked := n₁ } hanswer
  obtain ⟨n₃, h₃⟩ := (@tablesOnly_verifyFormula cfg args).1.gives
    { τ with asked := n₂ } hanswer
  rw [view_asked, hv] at h₃
  obtain ⟨n₄, h₄⟩ := (tablesOnly_selectInputs args v.formula).1.gives
    { τ with asked := n₃ } hanswer
  rw [view_asked, hs] at h₄
  obtain ⟨n₅, h₅⟩ := (yields_lockRequest args.organizationId (fingerprint cfg args)).gives
    { τ with asked := n₄ } hanswer
  obtain ⟨r, hr⟩ := Option.isSome_iff_exists.mp hrequest
  rw [view_asked, hr] at h₅
  obtain ⟨n₆, h₆⟩ := (yields_existing args.organizationId
    (cfg.executionHash (executionPayload args v s))).gives { τ with asked := n₅ } hanswer
  rw [view_asked, hexisting] at h₆
  have hrequest' : (resolveRequest cfg args s.comparisonPeriodId).alone calcSchema answer
      { τ with asked := n₄ } = (.ok r, { τ with asked := n₅ }) := Prog.alone_bind_ok h₅
  have hexecute : (executeRun cfg args v s (cfg.executionHash (executionPayload args v s))).alone
      calcSchema answer { τ with asked := n₄ } = (.ok o, { τ with asked := n₆ }) :=
    (Prog.alone_bind_ok hrequest').trans (Prog.alone_bind_ok h₆)
  refine ⟨n₆, (Prog.alone_bind_ok h₁).trans ?_⟩
  refine (Prog.alone_bind_ok h₂).trans ?_
  refine (Prog.alone_bind_ok (alone_tryCatch_ok h₃)).trans ?_
  refine (Prog.alone_bind_ok (alone_tryCatch_ok h₄)).trans ?_
  exact alone_tryCatch_ok hexecute

end CalculationService

end FinanceIntelligence
