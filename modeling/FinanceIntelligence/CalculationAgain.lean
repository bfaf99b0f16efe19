import FinanceIntelligence.CalculationOutcome
import FinanceIntelligence.CalculationRuns

/-!
# A calculation that is run again

The second run of a calculation finds the row of the first by the hash of its inputs. It adds
nothing. What it returns is what the columns kept, and what the first run returned is what the
formula gave: the two agree **exactly if the figures fit their columns**.

* `runCalculation_again` — the same calculation and **no further row**, and the same figures
  exactly if they fit.
-/

namespace FinanceIntelligence

open CalcProg CalculationService

variable {cfg : CalcConfig} {args : RunArgs} {answer answer' : ℕ → CalcAnswer}
  {σ σ' τ : Solo CalcStmt CalcDb} {o : RunOutcome}

/-! ## What the columns keep -/

section stored

open Numeric (store store_eq_self_iff)

/-- A number that is kept as it is. -/
theorem eq_iff_fits {p s : ℕ} {q q' : ℚ} (h : store p s q = some q') :
    q' = q ↔ Numeric.Fits p s q := by
  rw [← store_eq_self_iff, h, Option.some_inj]

variable {c c' : Calculation} {r r' : CalculationReconciliation}

theorem Calculation.stored_eq_some (h : c.stored = some c') :
    ∃ unrounded display factor, store 38 10 c.resultValueUnrounded = some unrounded ∧
      store 28 6 c.resultValueDisplay = some display ∧
      store 28 6 c.annualizationFactor = some factor ∧
      c' = { c with resultValueUnrounded := unrounded, resultValueDisplay := display
                    annualizationFactor := factor } := by
  simp only [Calculation.stored, Option.bind_eq_bind, Option.bind_eq_some_iff] at h
  obtain ⟨unrounded, hu, display, hd, factor, hf, hc⟩ := h
  exact ⟨unrounded, display, factor, hu, hd, hf, (Option.some.inj hc).symm⟩

/-- The numbers of a reconciliation fit their columns. -/
structure CalculationReconciliation.FitsColumns (r : CalculationReconciliation) : Prop where
  source : Numeric.Fits 28 6 r.sourceReportedValue
  derived : Numeric.Fits 28 6 r.systemDerivedValue
  unrounded : Numeric.Fits 38 10 r.derivedUnroundedValue
  difference : Numeric.Fits 28 6 r.difference
  absolute : Numeric.Fits 38 10 r.absoluteDifference
  relative : ∀ q ∈ r.relativeDifference, Numeric.Fits 28 10 q
  tolerance : Numeric.Fits 28 6 r.appliedToleranceValue

theorem storedRelative_eq_self_iff {q q' : Option ℚ} (h : storedRelative q = some q') :
    q' = q ↔ ∀ x ∈ q, Numeric.Fits 28 10 x := by
  cases q with
  | none =>
    cases h
    simp
  | some x =>
    obtain ⟨y, hy, rfl⟩ := Option.map_eq_some_iff.mp h
    simpa using eq_iff_fits hy

/-- **A reconciliation is kept as it is** exactly if its numbers fit. -/
theorem CalculationReconciliation.stored_eq_self_iff (h : r.stored = some r') :
    r' = r ↔ r.FitsColumns := by
  simp only [CalculationReconciliation.stored, Option.bind_eq_bind, Option.bind_eq_some_iff] at h
  obtain ⟨source, hs, derived, hd, unrounded, hu, difference, hdiff, absolute, habs, relative, hrel,
    tolerance, htol, hr⟩ := h
  obtain rfl := Option.some.inj hr
  have hfields : ({ r with
      sourceReportedValue := source, systemDerivedValue := derived
      derivedUnroundedValue := unrounded, difference := difference
      absoluteDifference := absolute, relativeDifference := relative
      appliedToleranceValue := tolerance } : CalculationReconciliation) = r ↔
      source = r.sourceReportedValue ∧ derived = r.systemDerivedValue ∧
        unrounded = r.derivedUnroundedValue ∧ difference = r.difference ∧
        absolute = r.absoluteDifference ∧ relative = r.relativeDifference ∧
        tolerance = r.appliedToleranceValue := by
    cases r
    simp only [CalculationReconciliation.mk.injEq, true_and, and_true]
  rw [hfields, eq_iff_fits hs, eq_iff_fits hd, eq_iff_fits hu, eq_iff_fits hdiff,
    eq_iff_fits habs, storedRelative_eq_self_iff hrel, eq_iff_fits htol]
  exact ⟨fun ⟨h₁, h₂, h₃, h₄, h₅, h₆, h₇⟩ => ⟨h₁, h₂, h₃, h₄, h₅, h₆, h₇⟩,
    fun ⟨h₁, h₂, h₃, h₄, h₅, h₆, h₇⟩ => ⟨h₁, h₂, h₃, h₄, h₅, h₆, h₇⟩⟩

theorem calculationId_of_stored (h : r.stored = some r') : r'.calculationId = r.calculationId := by
  simp only [CalculationReconciliation.stored, Option.bind_eq_bind, Option.bind_eq_some_iff] at h
  obtain ⟨_, -, _, -, _, -, _, -, _, -, _, -, _, -, hr⟩ := h
  obtain rfl := Option.some.inj hr
  rfl

end stored

/-! ## The second run -/

/-- Between two runs the tables of the rest of the application stay as they are, no row is removed,
and none is added to the calculation. -/
structure Undisturbed (c : Calculation) (d d' : CalcDb) : Prop where
  /-- the facts, and what else a calculation reads -/
  tables : d'.tables = d.tables
  requests : ∀ r ∈ d.requests, r ∈ d'.requests
  /-- the calculation -/
  executed : d'.executed c.organizationId c.executionIdempotencyHash =
    d.executed c.organizationId c.executionIdempotencyHash
  inputs : (d'.inputs.filter fun i => i.calculationId == c.id) =
    d.inputs.filter fun i => i.calculationId == c.id
  reconciliations : (d'.reconciliations.filter fun r => r.calculationId == c.id) =
    d.reconciliations.filter fun r => r.calculationId == c.id

theorem Undisturbed.refl (c : Calculation) (d : CalcDb) : Undisturbed c d d :=
  ⟨rfl, fun _ h => h, rfl, rfl, rfl⟩

/-- A reconciliation belongs to a calculation. -/
def Linked (d : CalcDb) : Prop :=
  ∀ r ∈ d.reconciliations, ∃ c ∈ d.calculations, c.id = r.calculationId

/-- The references keep it so. -/
theorem Linked.apply {s : CalcStmt} {d : CalcDb} (h : Linked d) (hcheck : s.check d = true) :
    Linked (s.apply d) := by
  cases s with
  | insertRequest | insertAttempt | insertInput | insertEvidence => exact h
  | insertCalculation c =>
    intro r hr
    obtain ⟨c', hc', hid⟩ := h r hr
    exact ⟨c', List.mem_append_left _ hc', hid⟩
  | insertReconciliation r =>
    intro r' hr'
    rcases List.mem_append.mp hr' with hr' | hr'
    · exact h r' hr'
    · have hid : r'.calculationId = r.calculationId := calculationId_of_stored
        (Option.mem_toList.mp hr')
      simp only [CalcStmt.check, Bool.and_eq_true, List.any_eq_true, beq_iff_eq] at hcheck
      obtain ⟨c, hc, -, hcid⟩ := hcheck.2
      exact ⟨c, hc, hcid.trans hid.symm⟩

/-- Both runs return the same figures. -/
structure SameFigures (o o' : RunOutcome) : Prop where
  unrounded : o'.calculation.resultValueUnrounded = o.calculation.resultValueUnrounded
  display : o'.calculation.resultValueDisplay = o.calculation.resultValueDisplay
  factor : o'.calculation.annualizationFactor = o.calculation.annualizationFactor
  reconciliation : o'.reconciliation = o.reconciliation

/-- The figures of a run fit their columns: those of the formula, and those of the comparison with
the reported figure. -/
structure FiguresFit (args : RunArgs) (v : CalculationService.VerifiedFormula)
    (s : CalculationService.SelectedInputs) (result : FormulaResult) (d : CalcDb) : Prop where
  unrounded : Numeric.Fits 38 10 result.resultValueUnrounded
  display : Numeric.Fits 28 6 result.resultValueDisplay
  factor : Numeric.Fits 28 6 s.annualizationFactor
  /-- the comparison -/
  reconciliation : ∀ source ∈ reportedFigures args d, ∀ calcId id,
    (reconciliationOf args v.definition calcId id result source).FitsColumns

/-- **Where a run returns what is stored**: the calculation is there already, or the figures that
the formula gives for the selected facts fit their columns. -/
def KeepsFigures (cfg : CalcConfig) (args : RunArgs) (d : CalcDb) : Prop :=
  ∃ v s, value (verifyFormula cfg args) d = .ok v ∧
    value (selectInputs args v.formula) d = .ok s ∧
    (d.executed args.organizationId (cfg.executionHash (executionPayload args v s)) ≠ [] ∨
      ∃ result, v.formula.calculate s.facts.input s.annualizationFactor = .ok result ∧
        FiguresFit args v s result d)

/-- What is returned for the calculation that a run has added. -/
theorem CalculationService.Completes.existing {e : Execution} {d d' : CalcDb} (hlinked : Linked d)
    (hnone : d.executed args.organizationId e.hash = []) (h : Completes args e o d d') :
    ∃ o', existingOutcome args.organizationId e.hash d' = .ok (some o') ∧
      o.calculation.stored = some o'.calculation ∧
      o'.reconciliation = o.reconciliation.bind (·.stored) := by
  obtain ⟨result, calcId, attemptId, number, id, source, -, -, hcalc, hrec⟩ := h.result
  obtain ⟨attempt, evidences, hrows⟩ := h.rows
  obtain ⟨c', hc'⟩ := Option.isSome_iff_exists.mp h.fits
  obtain ⟨_, _, _, -, -, -, hstored⟩ := Calculation.stored_eq_some hc'
  -- the calculation is the only one with the hash
  have hcalculations : d'.calculations = d.calculations ++ [c'] := by
    rw [hrows, Schema.view_cons, Schema.view_cons,
      (sameRuns_view (isLineage_lineage o evidences) _).calculations]
    simp [calcSchema, CalcStmt.apply, hc']
  have hexecuted : d'.executed args.organizationId e.hash = [c'] := by
    have horg : c'.organizationId = args.organizationId := by rw [hstored, hcalc]; rfl
    have hhash : c'.executionIdempotencyHash = e.hash := by rw [hstored, hcalc]; rfl
    rw [CalcDb.executed] at hnone
    rw [CalcDb.executed, hcalculations, List.filter_append, hnone]
    simp [horg, hhash]
  -- and has the reconciliation that was added with it
  have hid : c'.id = o.calculation.id := by rw [hstored]
  have hbelongs : ∀ r ∈ o.reconciliation, r.calculationId = o.calculation.id := by
    intro r hr
    rw [hrec] at hr
    obtain ⟨x, -, rfl⟩ := Option.map_eq_some_iff.mp hr
    rw [hcalc]
    rfl
  have hold : d.reconciliations.filter (fun r => r.calculationId == c'.id) = [] := by
    rw [List.filter_eq_nil_iff]
    intro r hr heq
    obtain ⟨c, hc, hcid⟩ := hlinked r hr
    exact h.fresh c hc (hcid.trans ((beq_iff_eq.mp heq).trans hid))
  have hreconciliations : d'.reconciliations =
      d.reconciliations ++ (o.reconciliation.bind (·.stored)).toList := by
    rw [hrows, reconciliations_view]
    congr 1
    exact reconciliations_lineage o evidences
  have hfilter : d'.reconciliations.filter (fun r => r.calculationId == c'.id) =
      (o.reconciliation.bind (·.stored)).toList := by
    rw [hreconciliations, List.filter_append, hold, List.nil_append, List.filter_eq_self]
    intro r hr
    obtain ⟨r₀, hr₀, hr₁⟩ := Option.bind_eq_some_iff.mp (Option.mem_toList.mp hr)
    rw [beq_iff_eq, calculationId_of_stored hr₁, hbelongs r₀ hr₀, hid]
  refine ⟨⟨c', d'.inputs.filter fun i => i.calculationId == c'.id,
    o.reconciliation.bind (·.stored)⟩, ?_, hc', rfl⟩
  rw [existingOutcome_of_executed hexecuted, hfilter]
  cases o.reconciliation.bind (·.stored) <;> rfl

/-- Requests that are added change neither calculations nor reconciliations. -/
theorem view_insertRequests (new : List CalculationRequest) (d : CalcDb) :
    (calcSchema.view (new.map .insertRequest) d).calculations = d.calculations ∧
      (calcSchema.view (new.map .insertRequest) d).reconciliations = d.reconciliations := by
  induction new generalizing d with
  | nil => exact ⟨rfl, rfl⟩
  | cons r new ih => exact ih _

theorem CalculationService.Completes.requests {e : Execution} {d d' : CalcDb}
    (h : Completes args e o d d') : d'.requests = d.requests := by
  obtain ⟨attempt, evidences, hrows⟩ := h.rows
  rw [hrows, Schema.view_cons, Schema.view_cons,
    (sameRuns_view (isLineage_lineage o evidences) _).requests]
  rfl

/-- What is returned for a calculation that is undisturbed. -/
theorem Undisturbed.existingOutcome {c : Calculation} {d d' : CalcDb} (h : Undisturbed c d d')
    (ho : existingOutcome c.organizationId c.executionIdempotencyHash d = .ok (some o))
    (hid : o.calculation.id = c.id) :
    existingOutcome c.organizationId c.executionIdempotencyHash d' = .ok (some o) := by
  have hexecuted : d.executed c.organizationId c.executionIdempotencyHash = [o.calculation] :=
    executed_of_existingOutcome ho
  rw [existingOutcome_of_executed hexecuted] at ho
  rw [existingOutcome_of_executed (h.executed.trans hexecuted), hid, h.reconciliations, h.inputs,
    ← hid]
  exact ho

/-- The figures of the calculation that was added are those that are kept. -/
theorem sameFigures_iff {o' : RunOutcome} {v : VerifiedFormula} {s : SelectedInputs}
    {hash : String} {request : CalculationRequest} {d d' : CalcDb}
    (h : Completes args ⟨v, s, hash, request⟩ o d d')
    (hcalculation : o.calculation.stored = some o'.calculation)
    (hreconciliation : o'.reconciliation = o.reconciliation.bind (·.stored)) :
    SameFigures o o' ↔
      ∃ result, v.formula.calculate s.facts.input s.annualizationFactor = .ok result ∧
        FiguresFit args v s result d := by
  obtain ⟨result, calcId, attemptId, number, id, source, hresult, hsource, hcalc, hrec⟩ := h.result
  obtain ⟨unrounded, display, factor, hu, hd, hf, hfields⟩ := Calculation.stored_eq_some hcalculation
  have hunrounded := eq_iff_fits hu
  have hdisplay := eq_iff_fits hd
  have hfactor := eq_iff_fits hf
  have hreported : o'.reconciliation = o.reconciliation ↔
      ∀ x ∈ reportedFigures args d, ∀ calcId id,
        (reconciliationOf args v.definition calcId id result x).FitsColumns := by
    rw [hreconciliation]
    match hl : reportedFigures args d with
    | [] =>
      rw [hl] at hsource
      cases hsource
      rw [hrec]
      simp
    | [x] =>
      rw [hl] at hsource
      cases hsource
      rw [Option.map_some] at hrec
      obtain ⟨r', hr'⟩ := Option.isSome_iff_exists.mp (h.reconciliationFits _ hrec)
      rw [hrec, Option.bind_some, hr', Option.some_inj,
        CalculationReconciliation.stored_eq_self_iff hr', List.forall_mem_singleton]
      -- the numbers do not depend on the ids
      exact ⟨fun h _ _ => ⟨h.source, h.derived, h.unrounded, h.difference, h.absolute, h.relative,
        h.tolerance⟩, fun h => h _ _⟩
    | _ :: _ :: _ =>
      rw [hl] at hsource
      cases hsource
  rw [hcalc] at hunrounded hdisplay hfactor
  constructor
  · intro hsame
    refine ⟨result, hresult, hunrounded.mp ?_, hdisplay.mp ?_, hfactor.mp ?_,
      hreported.mp hsame.reconciliation⟩
    · rw [← hcalc, ← hsame.unrounded, hfields]
    · rw [← hcalc, ← hsame.display, hfields]
    · rw [← hcalc, ← hsame.factor, hfields]
  · rintro ⟨result', hresult', hfit⟩
    obtain rfl := Except.ok.inj (hresult.symm.trans hresult')
    refine ⟨?_, ?_, ?_, hreported.mpr hfit.reconciliation⟩
    · rw [hfields, hcalc]
      exact hunrounded.mpr hfit.unrounded
    · rw [hfields, hcalc]
      exact hdisplay.mpr hfit.display
    · rw [hfields, hcalc]
      exact hfactor.mpr hfit.factor

/-- **A calculation that is run again** finds its row and adds nothing. It returns the same figures
exactly if they were there before the first run or fit their columns. -/
theorem runCalculation_again (hlinked : Linked (σ.view calcSchema))
    (hfirst : (runCalculation cfg args).alone calcSchema answer σ = (.ok o, σ'))
    (hbetween : Undisturbed o.calculation (σ'.view calcSchema) (τ.view calcSchema))
    (hanswer : Reliable answer') :
    ∃ o' n, (runCalculation cfg args).alone calcSchema answer' τ =
        (.ok o', { τ with asked := n }) ∧
      o'.calculation.id = o.calculation.id ∧
      (SameFigures o o' ↔ KeepsFigures cfg args (σ.view calcSchema)) := by
  obtain ⟨v, s, σ₁, hv, hs, hview, hexecute⟩ := runCalculation_eq_ok hfirst
  obtain ⟨new, d, hd, hrequest, hcase⟩ := executeRun_eq_ok hexecute
  rw [hview] at hd
  -- so far requests alone were added
  obtain ⟨hcalculations, hreconciliations⟩ := view_insertRequests new (σ.view calcSchema)
  rw [← hd] at hcalculations hreconciliations
  have htables : d.tables = (σ.view calcSchema).tables := by rw [hd, tables_view]
  have hexecuted (org hash) : d.executed org hash = (σ.view calcSchema).executed org hash := by
    rw [CalcDb.executed, CalcDb.executed, hcalculations]
  have hselected {v' s'} (hv' : value (verifyFormula cfg args) (σ.view calcSchema) = .ok v')
      (hs' : value (selectInputs args v'.formula) (σ.view calcSchema) = .ok s') :
      v' = v ∧ s' = s := by
    obtain rfl := Except.ok.inj (hv'.symm.trans hv)
    exact ⟨rfl, Except.ok.inj (hs'.symm.trans hs)⟩
  -- what there is for the hash after the first run
  obtain ⟨o', hexisting, hid, horg, hhash, hfigures, hd'⟩ : ∃ o',
      existingOutcome args.organizationId (cfg.executionHash (executionPayload args v s))
        (σ'.view calcSchema) = .ok (some o') ∧ o'.calculation.id = o.calculation.id ∧
      o.calculation.organizationId = args.organizationId ∧
      o.calculation.executionIdempotencyHash = cfg.executionHash (executionPayload args v s) ∧
      (SameFigures o o' ↔ KeepsFigures cfg args (σ.view calcSchema)) ∧
      (σ'.view calcSchema).tables = d.tables ∧ (σ'.view calcSchema).requests = d.requests := by
    rcases hcase with ⟨hexisting, hsame⟩ | ⟨hnone, request, hcompletes⟩
    · have hmem := executed_of_existingOutcome hexisting
      have hfound : o.calculation ∈ d.executed args.organizationId
          (cfg.executionHash (executionPayload args v s)) := by simp [hmem]
      have hboth := (List.mem_filter.mp hfound).2
      simp only [Bool.and_eq_true, beq_iff_eq] at hboth
      refine ⟨o, by rw [hsame, hexisting], rfl, hboth.1, hboth.2, ?_, by rw [hsame], by rw [hsame]⟩
      refine iff_of_true ⟨rfl, rfl, rfl, rfl⟩ ⟨v, s, hv, hs, .inl ?_⟩
      rw [← hexecuted]
      exact List.ne_nil_of_mem hfound
    · have hlinked' : Linked d := by
        rw [Linked, hcalculations, hreconciliations]
        exact hlinked
      obtain ⟨o', hexisting, hstored, hreconciliation⟩ := hcompletes.existing hlinked' hnone
      obtain ⟨_, _, _, -, -, -, hfields⟩ := Calculation.stored_eq_some hstored
      obtain ⟨_, _, _, _, _, _, -, -, hcalculation, -⟩ := hcompletes.result
      obtain ⟨_, _, hrows⟩ := hcompletes.rows
      refine ⟨o', hexisting, by rw [hfields], by rw [hcalculation]; rfl, by rw [hcalculation]; rfl,
        ?_, by rw [hrows, tables_view], hcompletes.requests⟩
      rw [sameFigures_iff hcompletes hstored hreconciliation]
      have hreported : reportedFigures args d = reportedFigures args (σ.view calcSchema) := by
        simp only [reportedFigures, CalcDb.facts, htables]
      constructor
      · rintro ⟨result, hresult, hfit⟩
        exact ⟨v, s, hv, hs, .inr ⟨result, hresult, hfit.unrounded, hfit.display, hfit.factor,
          hreported ▸ hfit.reconciliation⟩⟩
      · rintro ⟨v', s', hv', hs', hkeeps⟩
        obtain ⟨rfl, rfl⟩ := hselected hv' hs'
        rcases hkeeps with hthere | ⟨result, hresult, hfit⟩
        · rw [hexecuted] at hnone
          exact absurd hnone hthere
        · exact ⟨result, hresult, hfit.unrounded, hfit.display, hfit.factor,
            hreported ▸ hfit.reconciliation⟩
  -- the second run finds the same facts, the request and the calculation
  have hτ : (τ.view calcSchema).tables = (σ.view calcSchema).tables := by
    rw [hbetween.tables, hd'.1, htables]
  have hexisting' : existingOutcome args.organizationId
      (cfg.executionHash (executionPayload args v s)) (τ.view calcSchema) = .ok (some o') := by
    rw [← horg, ← hhash] at hexisting ⊢
    exact hbetween.existingOutcome hexisting hid
  have hrequest' : ((τ.view calcSchema).request args.organizationId
      (fingerprint cfg args)).isSome = true := by
    rw [CalcDb.request, List.find?_isSome] at hrequest ⊢
    obtain ⟨r, hr, hmatches⟩ := hrequest
    exact ⟨r, hbetween.requests r (by rw [hd'.2]; exact hr), hmatches⟩
  obtain ⟨n, hrun⟩ := runCalculation_existing hanswer
    (((tablesOnly_verifyFormula args).2 _ _ hτ).trans hv)
    (((tablesOnly_selectInputs args v.formula).2 _ _ hτ).trans hs) hrequest' hexisting'
  exact ⟨o', n, hrun, hid, hfigures⟩

/-! ## Two thirds -/

/-- An identifier of its own for each question. -/
def freshAnswers (n : ℕ) : CalcAnswer := { uuid := 100 + BitVec.ofNat 128 n }

/-- A calculation that is run twice, with nothing in between. -/
def runTwice (cfg : CalcConfig) (args : RunArgs) (d : CalcDb) :
    Except CalcExc (RunOutcome × RunOutcome) :=
  match (runCalculation cfg args).alone calcSchema freshAnswers { db := d } with
  | (.error x, _) => .error x
  | (.ok o, σ) =>
    match ((runCalculation cfg args).alone calcSchema freshAnswers σ).1 with
    | .ok o' => .ok (o, o')
    | .error x => .error x

/-- Loans of 200 to deposits of 300: the first run returns 38 digits, the second one twelve. -/
theorem ratio_again_rounded : ∃ o o',
    runTwice ratioConfig ratioArgs (notRun ratioTables) = .ok (o, o') ∧
    o'.calculation.id = o.calculation.id ∧
    o.calculation.resultValueUnrounded = 66666666666666666666666666666666666667 / 10 ^ 36 ∧
    o'.calculation.resultValueUnrounded = 666666666667 / 10 ^ 10 ∧
    o'.calculation.resultValueUnrounded ≠ o.calculation.resultValueUnrounded := by
  have hrun : (runTwice ratioConfig ratioArgs (notRun ratioTables)).toOption.map (fun r =>
      decide (r.2.calculation.id = r.1.calculation.id ∧
        r.1.calculation.resultValueUnrounded = 66666666666666666666666666666666666667 / 10 ^ 36 ∧
        r.2.calculation.resultValueUnrounded = 666666666667 / 10 ^ 10 ∧
        r.2.calculation.resultValueUnrounded ≠ r.1.calculation.resultValueUnrounded)) =
      some true := by
    decide +kernel
  obtain ⟨⟨o, o'⟩, hr, h⟩ := Option.map_eq_some_iff.mp hrun
  refine ⟨o, o', ?_, of_decide_eq_true h⟩
  cases hruns : runTwice ratioConfig ratioArgs (notRun ratioTables) with
  | ok r =>
    rw [hruns] at hr
    exact congrArg _ (Option.some.inj hr)
  | error x =>
    rw [hruns] at hr
    cases hr

/-- The ratio is found again. -/
theorem runCalculation_again_ratio : ∃ o σ',
    (runCalculation ratioConfig ratioArgs).alone calcSchema freshAnswers
      { db := notRun ratioTables } = (.ok o, σ') ∧
    ∃ o' n, (runCalculation ratioConfig ratioArgs).alone calcSchema freshAnswers σ' =
        (.ok o', { σ' with asked := n }) ∧
      o'.calculation.id = o.calculation.id ∧
      (SameFigures o o' ↔ KeepsFigures ratioConfig ratioArgs (notRun ratioTables)) := by
  have hreturns : ((runCalculation ratioConfig ratioArgs).alone calcSchema freshAnswers
      { db := notRun ratioTables }).1.isOk = true := by
    decide +kernel
  have hlinked : Linked (Solo.view calcSchema { db := notRun ratioTables }) :=
    fun _ hr => absurd hr List.not_mem_nil
  match hrun : (runCalculation ratioConfig ratioArgs).alone calcSchema freshAnswers
      { db := notRun ratioTables } with
  | (.ok o, σ') =>
    exact ⟨o, σ', rfl, runCalculation_again hlinked hrun (Undisturbed.refl _ _) fun _ => rfl⟩
  | (.error x, σ') =>
    rw [hrun] at hreturns
    cases hreturns

end FinanceIntelligence
