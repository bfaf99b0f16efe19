import FinanceIntelligence.CalculationSafe

/-!
# What a run knows

A run knows which facts and which request it has locked, what the number of its attempt is, and
that no calculation has its execution hash. The rules say what each part of `run_calculation` adds
to this; with them every session keeps the discipline (`calculation_sound`).
-/

namespace FinanceIntelligence

open CalcProg CalculationService

variable {cfg : CalcConfig} {c : List RunArgs} {α β : Type} {σ : Cfg CalcRow CalcStmt Empty CalcDb}
  {rows : List CalcRow} {K : CalcDb → Prop} {l : List CalcStmt}
  {Q : α → Cfg CalcRow CalcStmt Empty CalcDb → Prop}

/-- A postcondition; what is raised does not matter. -/
abbrev Runs (cfg : CalcConfig) (c : List RunArgs) (p : CalcProg α)
    (Q : α → Cfg CalcRow CalcStmt Empty CalcDb → Prop) (σ : Cfg CalcRow CalcStmt Empty CalcDb) :
    Prop :=
  (calcDiscipline cfg).wp c p Q (fun _ _ => True) σ

/-- What a run knows. -/
abbrev CalcKnows (cfg : CalcConfig) := (calcDiscipline cfg).Knows

/-! ## Reading -/

theorem runs_bind {p : CalcProg α} {f : α → CalcProg β}
    {Q : β → Cfg CalcRow CalcStmt Empty CalcDb → Prop}
    (h : Runs cfg c p (fun a => Runs cfg c (f a) Q) σ) : Runs cfg c (p.bind f) Q σ := by
  rw [Runs, Discipline.wp_bind]
  exact h

theorem runs_attempt {Q : Unit → Cfg CalcRow CalcStmt Empty CalcDb → Prop} (hQ : Q () σ) :
    Runs cfg c attempt Q σ := by
  rintro ⟨_, fails, _⟩
  cases fails with
  | true => trivial
  | false => exact hQ

theorem runs_uuid4 {Q : Uuid → Cfg CalcRow CalcStmt Empty CalcDb → Prop} (hQ : ∀ id, Q id σ) :
    Runs cfg c uuid4 Q σ := fun i => hQ i.uuid

theorem runs_lift {e : Except CalcExc α} (hQ : ∀ a, e = .ok a → Q a σ) :
    Runs cfg c (lift e) Q σ := by
  cases e with
  | ok a => exact hQ a rfl
  | error x => trivial

theorem runs_select {q : CalcDb → α} (h : CalcKnows cfg rows K l σ)
    (hQ : ∀ σ', CalcsWell σ'.db → CalcKnows cfg rows K l σ' →
      Q (q (calcSchema.view l σ'.db)) σ') : Runs cfg c (select q) Q σ :=
  runs_bind (runs_attempt (h.read fun σ' hwell h' => hQ σ' hwell h'))

theorem runs_scalarOneOrNone {l : List α} {Q : Option α → Cfg CalcRow CalcStmt Empty CalcDb → Prop}
    (hnone : l = [] → Q none σ) (hsome : ∀ a, l = [a] → Q (some a) σ) :
    Runs cfg c (scalarOneOrNone l) Q σ :=
  match l with
  | [] => hnone rfl
  | [a] => hsome a rfl
  | _ :: _ :: _ => trivial

/-- A part that only reads keeps what is known. -/
theorem runs_reads {p : CalcProg α} (h : CalcKnows cfg rows K l σ) (hp : p.Reads)
    (hQ : ∀ a σ', CalcKnows cfg rows K l σ' → Q a σ') : Runs cfg c p Q σ :=
  Discipline.wp_mono hQ (fun _ _ _ => trivial) (h.reads hp)

theorem reads_attempt : attempt.Reads := by
  rintro ⟨_, fails, _⟩
  cases fails <;> trivial

theorem reads_lift (e : Except CalcExc α) : (lift e).Reads := by
  cases e <;> trivial

theorem reads_select (q : CalcDb → α) : (select q).Reads :=
  reads_attempt.bind fun _ _ => trivial

theorem reads_scalarOneOrNone : ∀ l : List α, (scalarOneOrNone l).Reads
  | [] => trivial
  | [_] => trivial
  | _ :: _ :: _ => trivial

theorem reads_selectOne (q : CalcDb → List α) : (CalcProg.selectOne q).Reads :=
  (reads_select q).bind reads_scalarOneOrNone

theorem reads_verifyFormula (args : RunArgs) : (verifyFormula cfg args).Reads := by
  refine (reads_lift _).bind fun f => (reads_selectOne _).bind fun found => ?_
  cases found with
  | none => trivial
  | some definition => exact (reads_lift _).bind fun _ => trivial

theorem reads_resolveComparison (args : RunArgs) (requirement : ComparisonRequirement)
    (rep : PeriodRow) : (resolveComparison args requirement rep).Reads := by
  have hfound (p : Option PeriodRow) : (found p).Reads := by cases p <;> trivial
  have hperiod (id : Uuid) : (do
      let comp ← (selectPeriod args.organizationId id).bind found
      if comp.periodType ≠ rep.periodType then .raise (.value "PERIOD_TYPE_MISMATCH")
      else return comp : CalcProg PeriodRow).Reads := by
    refine ((reads_selectOne _).bind hfound).bind fun comp => ?_
    split <;> trivial
  unfold resolveComparison
  split
  · trivial
  · trivial
  · exact (reads_select _).bind hfound
  · exact (reads_select _).bind hfound
  · exact hperiod _

theorem reads_resolvePeriods (args : RunArgs) (f : Formula) : (resolvePeriods args f).Reads := by
  refine (reads_selectOne _).bind fun rep => ?_
  cases rep with
  | none => trivial
  | some rep =>
    dsimp only
    split
    · trivial
    · exact (reads_resolveComparison _ _ _).bind fun _ => trivial
    · refine (reads_resolveComparison _ _ _).bind fun comp => ?_
      split <;> trivial

theorem reads_collectEvidence (org calcId inputId : Uuid) (f : FinancialFact) :
    ∀ l, (collectEvidence cfg org calcId inputId f l).Reads
  | [] => trivial
  | (_, ev) :: rest => by
    refine (reads_select _).bind fun error => ?_
    cases error with
    | some e => trivial
    | none =>
      exact fun _ => (reads_collectEvidence org calcId inputId f rest).bind fun _ => trivial

theorem reads_collectInputs (org calcId : Uuid) (factor : ℚ) :
    ∀ facts, (collectInputs cfg org calcId factor facts).Reads
  | [] => trivial
  | (_, f) :: rest => by
    refine (reads_select _).bind fun evidence => ?_
    dsimp only
    split
    · trivial
    · exact fun _ => (reads_collectEvidence _ _ _ _ _).bind fun _ =>
        (reads_collectInputs org calcId factor rest).bind fun _ => trivial

/-! ## Facts -/

/-- Facts are locked, and what is returned is. -/
theorem runs_lockFacts {q : FinancialFact → Bool} {ids : List Uuid}
    {Q : List FinancialFact → Cfg CalcRow CalcStmt Empty CalcDb → Prop}
    (h : CalcKnows cfg rows K l σ)
    (hQ : ∀ fs rows' σ', rows ⊆ rows' → (∀ f ∈ fs, .fact f.id ∈ rows') →
      CalcKnows cfg rows' K l σ' → Q fs σ') : Runs cfg c (lockFacts q ids) Q σ := by
  induction ids generalizing rows σ Q with
  | nil => exact hQ [] rows σ (fun _ hr => hr) (fun _ hf => absurd hf List.not_mem_nil) h
  | cons id ids ih =>
    refine h.lock (fun σ₁ _ _ h₁ => h₁.read fun σ₂ _ h₂ => ?_) fun σ₁ _ h₁ => ih h₁ hQ
    refine runs_bind (ih h₂ fun fs rows' σ₃ hrows hfs h₃ => ?_)
    refine hQ _ rows' σ₃ (fun r hr => hrows (List.mem_cons_of_mem _ hr)) (fun f hf => ?_) h₃
    rcases List.mem_append.mp hf with hf | hf
    · -- the fact that was looked up is the one that was locked
      have hid := List.find?_some (Option.mem_toList.mp hf)
      rw [beq_iff_eq] at hid
      rw [hid]
      exact hrows List.mem_cons_self
    · exact hfs f hf

theorem runs_selectFact {q : FinancialFact → Bool}
    {Q : Option FinancialFact → Cfg CalcRow CalcStmt Empty CalcDb → Prop}
    (h : CalcKnows cfg rows K l σ)
    (hQ : ∀ o rows' σ', rows ⊆ rows' → (∀ f, o = some f → .fact f.id ∈ rows') →
      CalcKnows cfg rows' K l σ' → Q o σ') : Runs cfg c (selectFact q) Q σ := by
  refine runs_bind (runs_select h fun σ₁ _ h₁ => runs_bind ?_)
  refine runs_lockFacts h₁ fun fs rows' σ₂ hrows hfs h₂ => runs_scalarOneOrNone ?_ ?_
  · exact fun _ => hQ none rows' σ₂ hrows (fun _ hf => by cases hf) h₂
  · rintro f rfl
    refine hQ (some f) rows' σ₂ hrows (fun g hg => ?_) h₂
    exact hfs g (Option.some.inj hg ▸ List.mem_cons_self)

/-- The selection of a formula: one fact at least, and all of them locked. -/
theorem runs_selectFacts {args : RunArgs} {f : Formula} {comp : Option Uuid}
    {Q : FactObjects → Cfg CalcRow CalcStmt Empty CalcDb → Prop}
    (h : CalcKnows cfg rows K l σ)
    (hQ : ∀ facts rows' σ', rows ⊆ rows' → facts ≠ [] → (∀ x ∈ facts, .fact x.2.id ∈ rows') →
      CalcKnows cfg rows' K l σ' → Q facts σ') : Runs cfg c (selectFacts args f comp) Q σ := by
  -- two facts, for the formulas of two figures
  have htwo (q q' : FinancialFact → Bool)
      {next : Option FinancialFact → Option FinancialFact → CalcProg FactObjects}
      (hnext : ∀ x y rows' σ', rows ⊆ rows' → (∀ f, x = some f → .fact f.id ∈ rows') →
        (∀ f, y = some f → .fact f.id ∈ rows') → CalcKnows cfg rows' K l σ' →
          Runs cfg c (next x y) Q σ') :
      Runs cfg c (do
        let x ← selectFact q
        let y ← selectFact q'
        next x y) Q σ := by
    refine runs_bind (runs_selectFact h fun x rows₁ σ₁ hrows₁ hx h₁ => ?_)
    refine runs_bind (runs_selectFact h₁ fun y rows₂ σ₂ hrows₂ hy h₂ => ?_)
    exact hnext x y rows₂ σ₂ (fun _ hr => hrows₂ (hrows₁ hr)) (fun f hf => hrows₂ (hx f hf)) hy h₂
  -- and three, for those of a period and its balances
  have hthree (q q' q'' : FinancialFact → Bool)
      {next : Option FinancialFact → Option FinancialFact → Option FinancialFact →
        CalcProg FactObjects}
      (hnext : ∀ x y z rows' σ', rows ⊆ rows' → (∀ f, x = some f → .fact f.id ∈ rows') →
        (∀ f, y = some f → .fact f.id ∈ rows') → (∀ f, z = some f → .fact f.id ∈ rows') →
          CalcKnows cfg rows' K l σ' → Runs cfg c (next x y z) Q σ') :
      Runs cfg c (do
        let x ← selectFact q
        let y ← selectFact q'
        let z ← selectFact q''
        next x y z) Q σ := by
    refine runs_bind (runs_selectFact h fun x rows₁ σ₁ hrows₁ hx h₁ => ?_)
    refine runs_bind (runs_selectFact h₁ fun y rows₂ σ₂ hrows₂ hy h₂ => ?_)
    refine runs_bind (runs_selectFact h₂ fun z rows₃ σ₃ hrows₃ hz h₃ => ?_)
    exact hnext x y z rows₃ σ₃ (fun _ hr => hrows₃ (hrows₂ (hrows₁ hr)))
      (fun f hf => hrows₃ (hrows₂ (hx f hf))) (fun f hf => hrows₃ (hy f hf)) hz h₃
  cases f with
  | growthRate | loanToDepositRatio | nplRatio =>
    refine htwo _ _ fun x y rows' σ' hrows hx hy h' => ?_
    split
    · refine hQ _ rows' σ' hrows (List.cons_ne_nil _ _) ?_ h'
      simp only [List.forall_mem_cons, List.not_mem_nil, false_implies, implies_true, and_true]
      exact ⟨hx _ rfl, hy _ rfl⟩
    · trivial
  | returnOnAssets | returnOnEquity =>
    refine hthree _ _ _ fun x y z rows' σ' hrows hx hy hz h' => ?_
    split
    · split
      · trivial
      · refine hQ _ rows' σ' hrows (List.cons_ne_nil _ _) ?_ h'
        simp only [List.forall_mem_cons, List.not_mem_nil, false_implies, implies_true, and_true]
        exact ⟨hx _ rfl, hy _ rfl, hz _ rfl⟩
    · trivial

theorem runs_selectInputs {args : RunArgs} {f : Formula}
    {Q : SelectedInputs → Cfg CalcRow CalcStmt Empty CalcDb → Prop}
    (h : CalcKnows cfg rows K l σ)
    (hQ : ∀ (s : SelectedInputs) rows' σ', rows ⊆ rows' → s.facts ≠ [] →
      (∀ x ∈ s.facts, .fact x.2.id ∈ rows') → CalcKnows cfg rows' K l σ' → Q s σ') :
    Runs cfg c (selectInputs args f) Q σ := by
  refine runs_bind (runs_reads h (reads_resolvePeriods args f) fun periods σ₁ h₁ => ?_)
  obtain ⟨rep, comp⟩ := periods
  refine runs_bind (runs_lift fun factor _ => ?_)
  refine runs_bind (runs_selectFacts h₁ fun facts rows' σ₂ hrows hne hfacts h₂ => ?_)
  split
  · trivial
  · exact hQ _ rows' σ₂ hrows hne hfacts h₂

theorem mem_insertByRole {x y : InputRole × FinancialFact} {facts : FactObjects} :
    y ∈ insertByRole x facts ↔ y = x ∨ y ∈ facts := by
  induction facts with
  | nil => simp [insertByRole]
  | cons z l ih =>
    rw [insertByRole]
    split
    · exact List.mem_cons
    · simp only [List.mem_cons, ih]
      tauto

theorem mem_sorted {y : InputRole × FinancialFact} {facts : FactObjects} :
    y ∈ facts.sorted ↔ y ∈ facts := by
  induction facts with
  | nil => rfl
  | cons x l ih =>
    have hcons : FactObjects.sorted (x :: l) = insertByRole x (FactObjects.sorted l) := rfl
    rw [hcons, mem_insertByRole, ih, List.mem_cons]

/-- The execution is about the facts that were selected. -/
theorem mem_factIds {args : RunArgs} {v : VerifiedFormula} {s : SelectedInputs} {id : Uuid} :
    id ∈ (executionPayload args v s).factIds ↔ ∃ x ∈ s.facts, x.2.id = id := by
  simp only [ExecutionPayload.factIds, executionPayload, List.map_map, List.mem_map]
  exact exists_congr fun x => and_congr_left fun _ => mem_sorted

/-! ## Requests -/

/-- The entry of a request in the index. -/
abbrev CalculationRequest.key (r : CalculationRequest) : CalcRow :=
  .request r.organizationId r.requestFingerprint

/-- What a session sees of the requests that it has added. -/
theorem view_requests (rs : List CalculationRequest) :
    ∀ d, calcSchema.view (rs.map .insertRequest) d = { d with requests := d.requests ++ rs } := by
  induction rs with
  | nil =>
    intro d
    simp
  | cons r rs ih =>
    intro d
    rw [List.map_cons, Schema.view_cons, ih]
    simp [calcSchema, CalcStmt.apply]

theorem CalcDb.request_eq_some {d : CalcDb} {org : Uuid} {fp : String} {r : CalculationRequest}
    (h : d.request org fp = some r) :
    r ∈ d.requests ∧ r.organizationId = org ∧ r.requestFingerprint = fp := by
  have hfound := List.find?_some h
  simp only [Bool.and_eq_true, beq_iff_eq] at hfound
  exact ⟨List.mem_of_find?_eq_some h, hfound⟩

/-- A request is found, in the tables or among those that the session has added, and locked. -/
theorem runs_lockRequest {org : Uuid} {fp : String} {rs : List CalculationRequest}
    {Q : Option CalculationRequest → Cfg CalcRow CalcStmt Empty CalcDb → Prop}
    (h : CalcKnows cfg rows K (rs.map .insertRequest) σ)
    (hnone : ∀ rows' σ', rows ⊆ rows' → CalcKnows cfg rows' K (rs.map .insertRequest) σ' →
      Q none σ')
    (hsome : ∀ r σ', r.organizationId = org → r.requestFingerprint = fp →
      CalcKnows cfg (.request org fp :: rows) (fun d => K d ∧ (r ∈ d.requests ∨ r ∈ rs))
        (rs.map .insertRequest) σ' → Q (some r) σ') :
    Runs cfg c (lockRequest org fp) Q σ := by
  refine runs_bind (runs_attempt (h.lock (fun σ₁ _ _ h₁ => h₁.read fun σ₂ _ h₂ => ?_)
    fun σ₁ _ h₁ => hnone rows σ₁ (fun _ hr => hr) h₁))
  cases hfound : (calcSchema.view (rs.map .insertRequest) σ₂.db).request org fp with
  | none =>
    change Q ((calcSchema.view (rs.map .insertRequest) σ₂.db).request org fp) σ₂
    rw [hfound]
    exact hnone _ σ₂ (fun _ hr => List.mem_cons_of_mem _ hr) h₂
  | some r =>
    change Q ((calcSchema.view (rs.map .insertRequest) σ₂.db).request org fp) σ₂
    rw [hfound]
    obtain ⟨hmem, horg, hfp⟩ := CalcDb.request_eq_some hfound
    rw [view_requests] at hmem
    refine hsome r σ₂ horg hfp (h₂.and ?_ (List.mem_append.mp hmem))
    exact fun d d' _ hevolves _ _ hr => hr.imp_left (hevolves.requests r)

/-- The row of the request is locked: it was there, or it is added. -/
theorem runs_resolveRequest {args : RunArgs} {comp : Option Uuid} {rs : List CalculationRequest}
    {Q : CalculationRequest → Cfg CalcRow CalcStmt Empty CalcDb → Prop}
    (h : CalcKnows cfg rows K (rs.map .insertRequest) σ) (hrs : ∀ r ∈ rs, r.key ∈ rows)
    (hQ : ∀ (r : CalculationRequest) (rs' : List CalculationRequest) rows' σ', rows ⊆ rows' →
      (∀ r ∈ rs', r.key ∈ rows') → r.key ∈ rows' →
      r.organizationId = args.organizationId →
      CalcKnows cfg rows' (fun d => K d ∧ (r ∈ d.requests ∨ r ∈ rs')) (rs'.map .insertRequest) σ' →
      Q r σ') :
    Runs cfg c (resolveRequest cfg args comp) Q σ := by
  -- a request that the lock has found
  have hfound {rows' : List CalcRow} (hrows : rows ⊆ rows')
      (r : CalculationRequest) (σ' : Cfg CalcRow CalcStmt Empty CalcDb)
      (horg : r.organizationId = args.organizationId)
      (hfp : r.requestFingerprint = fingerprint cfg args)
      (h' : CalcKnows cfg (.request args.organizationId (fingerprint cfg args) :: rows')
        (fun d => K d ∧ (r ∈ d.requests ∨ r ∈ rs)) (rs.map .insertRequest) σ') : Q r σ' := by
    refine hQ r rs _ σ' (fun _ hr => List.mem_cons_of_mem _ (hrows hr))
      (fun x hx => List.mem_cons_of_mem _ (hrows (hrs x hx))) ?_ horg h'
    rw [CalculationRequest.key, horg, hfp]
    exact List.mem_cons_self
  refine runs_bind (runs_lockRequest h (fun rows₁ σ₁ hrows₁ h₁ => ?_)
    fun r σ₁ horg hfp h₁ => hfound (fun _ hr => hr) r σ₁ horg hfp h₁)
  -- a request that is added
  have hadded (new : CalculationRequest) (σ₂ : Cfg CalcRow CalcStmt Empty CalcDb)
      (horg : new.organizationId = args.organizationId)
      (h₂ : CalcKnows cfg (new.key :: rows₁) K (rs.map .insertRequest ++ [.insertRequest new]) σ₂) :
      Q new σ₂ := by
    refine hQ new (rs ++ [new]) (new.key :: rows₁) σ₂
      (fun _ hr => List.mem_cons_of_mem _ (hrows₁ hr)) (fun x hx => ?_) List.mem_cons_self horg ?_
    · rcases List.mem_append.mp hx with hx | hx
      · exact List.mem_cons_of_mem _ (hrows₁ (hrs x hx))
      · rw [List.mem_singleton.mp hx]
        exact List.mem_cons_self
    · rw [List.map_append, List.map_singleton]
      have hmem : new ∈ rs ++ [new] := List.mem_append_right _ List.mem_cons_self
      exact h₂.and (fun _ _ _ _ _ _ _ => .inr hmem) (.inr hmem)
  refine runs_bind (runs_uuid4 fun id => runs_bind (runs_attempt ?_))
  refine runs_bind (h₁.write not_false (fun σ₂ h₂ => hadded _ σ₂ rfl h₂) fun σ₂ h₂ => ?_)
  -- somebody else has added it
  refine runs_bind (runs_lockRequest h₂ (fun _ _ _ _ => trivial) fun r σ₃ horg hfp h₃ => ?_)
  exact hfound (fun _ hr => List.mem_append_right _ (hrows₁ hr)) r σ₃ horg hfp h₃

/-- The last number of a request: of one in the tables, or of one that is added. An added request
whose id is taken is never committed. -/
def LastNumber (rs : List CalculationRequest) (r : CalculationRequest) (n : ℕ) (d : CalcDb) :
    Prop :=
  (r ∈ d.requests ∧ (d.attemptsOf r.organizationId r.id).length = n) ∨
    (r ∈ rs ∧ (n = 0 ∨ ∃ x ∈ d.requests, x.id = r.id))

theorem runs_lastNumber {r : CalculationRequest} {rs : List CalculationRequest} {org : Uuid}
    {Q : ℕ → Cfg CalcRow CalcStmt Empty CalcDb → Prop}
    (h : CalcKnows cfg rows K (rs.map .insertRequest) σ) (hkey : r.key ∈ rows)
    (horg : r.organizationId = org)
    (hr : ∀ d, K d → r ∈ d.requests ∨ r ∈ rs)
    (hQ : ∀ n σ', CalcKnows cfg rows (fun d => K d ∧ LastNumber rs r n d) (rs.map .insertRequest)
      σ' → Q n σ') :
    Runs cfg c (select fun d => d.maxAttemptNumber org r.id) Q σ := by
  subst horg
  refine runs_select h fun σ₁ hwell h₁ => hQ _ σ₁ (h₁.and ?_ ?_)
  · intro d d' hagree hevolves _ _ hlast
    obtain ⟨hmem, hlen⟩ | ⟨hmem, hid⟩ := hlast
    · refine .inl ⟨hevolves.requests r hmem, ?_⟩
      rw [(hagree r.key hkey r rfl rfl).2 hmem, hlen]
    · exact .inr ⟨hmem, hid.imp id fun ⟨x, hx, hxr⟩ => ⟨x, hevolves.requests x hx, hxr⟩⟩
  · have hview : (calcSchema.view (rs.map .insertRequest) σ₁.db).maxAttemptNumber r.organizationId
        r.id = σ₁.db.maxAttemptNumber r.organizationId r.id := by
      rw [view_requests]
      rfl
    rw [hview]
    by_cases hmem : r ∈ σ₁.db.requests
    · exact .inl ⟨hmem, (CalcDb.maxAttemptNumber_of_numbered (hwell.numbered r hmem)).symm⟩
    · refine .inr ⟨(hr _ h₁.holds).resolve_left hmem, ?_⟩
      by_cases hid : ∃ x ∈ σ₁.db.requests, x.id = r.id
      · exact .inr hid
      · push Not at hid
        refine .inl ?_
        rw [CalcDb.maxAttemptNumber, hwell.attemptsOf_eq_nil hid]
        rfl

/-- The number of the next attempt follows, if the requests are committed. -/
theorem LastNumber.next {rs : List CalculationRequest} {r : CalculationRequest} {n : ℕ}
    {d d₁ : CalcDb} (h : LastNumber rs r n d) (hd : CalcsWell d) (hd₁ : CalcsWell d₁)
    (hkey : r.key ∈ rows)
    (hreq : d₁.requests = d.requests ++ rs) (hatt : d₁.attempts = d.attempts)
    {a : CalculationAttempt} (horg : a.organizationId = r.organizationId)
    (hid : a.calculationRequestId = r.id) (hn : a.attemptNumber = n + 1) :
    NextAttempt rows d₁ a := by
  have hof : d₁.attemptsOf a.organizationId a.calculationRequestId =
      d.attemptsOf r.organizationId r.id := by
    rw [horg, hid, CalcDb.attemptsOf, CalcDb.attemptsOf, hatt]
  have hmem : r ∈ d₁.requests := by
    rw [hreq, List.mem_append]
    exact h.imp And.left And.left
  refine ⟨⟨r, hmem, hkey, horg.symm, hid.symm⟩, ?_⟩
  rw [hn, hof]
  obtain ⟨-, hlen⟩ | ⟨hr, hzero⟩ := h
  · rw [hlen]
  · -- the request was added, so that its id is not taken
    have hfree : ∀ x ∈ d.requests, x.id ≠ r.id := by
      have hpair := hd₁.requestIds
      rw [hreq] at hpair
      exact fun x hx => (List.pairwise_append.mp hpair).2.2 x hx r hr
    have hnone : ¬ ∃ x ∈ d.requests, x.id = r.id := by
      rintro ⟨x, hx, hxr⟩
      exact hfree x hx hxr
    obtain rfl := hzero.resolve_right hnone
    rw [hd.attemptsOf_eq_nil hfree]
    rfl

/-! ## Writing -/

theorem runs_execute {s : CalcStmt} {Q : Unit → Cfg CalcRow CalcStmt Empty CalcDb → Prop}
    (h : CalcKnows cfg rows K l σ)
    (hQ : ∀ σ', CalcKnows cfg (s.target.toList ++ rows) K (l ++ [s]) σ' → Q () σ') :
    Runs cfg c (execute s) Q σ :=
  runs_bind (runs_attempt (h.write not_false (fun σ₁ h₁ => hQ σ₁ h₁) fun _ _ => trivial))

theorem runs_executeAll {ss : List CalcStmt}
    {Q : Unit → Cfg CalcRow CalcStmt Empty CalcDb → Prop} (h : CalcKnows cfg rows K l σ)
    (hss : ∀ s ∈ ss, s.target = none)
    (hQ : ∀ σ', CalcKnows cfg rows K (l ++ ss) σ' → Q () σ') :
    Runs cfg c (executeAll ss) Q σ := by
  induction ss generalizing l σ with
  | nil => exact hQ σ (by rwa [List.append_nil])
  | cons s ss ih =>
    refine runs_bind (runs_execute h fun σ₁ h₁ => ?_)
    rw [hss s List.mem_cons_self] at h₁
    refine ih h₁ (fun s hs => hss s (List.mem_cons_of_mem _ hs)) fun σ₂ h₂ => hQ σ₂ ?_
    rwa [List.append_assoc, List.singleton_append] at h₂

/-- After a commit nothing is pending. -/
theorem runs_commit {Q : Unit → Cfg CalcRow CalcStmt Empty CalcDb → Prop}
    (h : CalcKnows cfg rows K l σ)
    (hlawful : ∀ d d', CalcsWell d → K d → calcSchema.replay l d = .ok d' →
      LawfulCalc cfg rows d d')
    (hQ : ∀ σ', CalcKnows cfg [] (fun _ => True) [] σ' → Q () σ') :
    Runs cfg c commit Q σ := by
  refine runs_bind (runs_attempt (h.commit (fun _ => id) ?_ fun e σ₁ h₁ => ?_))
  · intro d d' hd hK hreplay
    have hl := hlawful d d' hd hK hreplay
    exact ⟨hl.agree, hl.well, hl.evolves⟩
  · cases e with
    | none => exact hQ σ₁ h₁
    | some s => trivial

/-! ## Executions -/

/-- The calculation of an execution is looked for. -/
theorem runs_existing {org : Uuid} {hash : String}
    {Q : Option RunOutcome → Cfg CalcRow CalcStmt Empty CalcDb → Prop}
    (h : CalcKnows cfg rows K l σ)
    (hl : ∀ d, (calcSchema.view l d).calculations = d.calculations)
    (hnone : ∀ σ', σ'.db.executed org hash = [] → CalcKnows cfg rows K l σ' → Q none σ')
    (hsome : ∀ o σ', (∃ d, K d ∧ d.executed org hash ≠ []) → CalcKnows cfg rows K l σ' →
      Q (some o) σ') :
    Runs cfg c (existing org hash) Q σ := by
  have hexecuted (d : CalcDb) : (calcSchema.view l d).executed org hash = d.executed org hash := by
    rw [CalcDb.executed, CalcDb.executed, hl]
  refine runs_bind (runs_bind (runs_select h fun σ₁ _ h₁ => runs_scalarOneOrNone ?_ ?_))
  · intro hnil
    rw [hexecuted] at hnil
    exact hnone σ₁ hnil h₁
  · intro calculation hcons
    rw [hexecuted] at hcons
    have hne : ∃ d, K d ∧ d.executed org hash ≠ [] :=
      ⟨σ₁.db, h₁.holds, by rw [hcons]; exact List.cons_ne_nil _ _⟩
    refine runs_bind (runs_reads h₁ (reads_select _) fun inputs σ₂ h₂ => ?_)
    refine runs_bind (runs_reads h₂ (reads_selectOne _) fun reconciliation σ₃ h₃ => ?_)
    exact hsome _ σ₃ hne h₃

/-- What the transaction of a run commits: the requests of its session, the attempt, and what may
follow it. -/
theorem LawfulCalc.attempt {rs : List CalculationRequest} {r : CalculationRequest} {n : ℕ}
    {a : CalculationAttempt} {rest : List CalcStmt} {d d' : CalcDb} (hd : CalcsWell d)
    (hrs : ∀ r ∈ rs, r.key ∈ rows) (hkey : r.key ∈ rows) (hlast : LastNumber rs r n d)
    (horg : a.organizationId = r.organizationId) (hid : a.calculationRequestId = r.id)
    (hn : a.attemptNumber = n + 1)
    (h : calcSchema.replay (rs.map .insertRequest ++ .insertAttempt a :: rest) d = .ok d')
    (hrest : ∀ d₁, CalcsWell d₁ → NextAttempt rows d₁ a →
      (CalcStmt.insertAttempt a).check d₁ = true →
      calcSchema.replay rest (CalcStmt.apply (.insertAttempt a) d₁) = .ok d' →
      LawfulCalc cfg rows d₁ d') : LawfulCalc cfg rows d d' := by
  obtain ⟨d₁, h₁, h⟩ := calcSchema.replay_append_eq_ok h
  obtain ⟨hlawful, hreq, hatt, -⟩ :
      LawfulCalc cfg rows d d₁ ∧ d₁.requests = d.requests ++ rs ∧ d₁.attempts = d.attempts ∧
        d₁.calculations = d.calculations := LawfulCalc.requests hd hrs h₁
  obtain ⟨hcheck, h⟩ := calc_replay_cons h
  exact hlawful.trans (hrest d₁ hlawful.well
    (hlast.next hd hlawful.well hkey hreq hatt horg hid hn) hcheck h)

/-- The rows of a calculation that are written with the completion. -/
theorem runs_addLineage {args : RunArgs} {e : Execution} {result : FormulaResult}
    {calculation : Calculation} {inputs : List CalculationInput}
    {evidences : List CalculationEvidence}
    {Q : RunOutcome → Cfg CalcRow CalcStmt Empty CalcDb → Prop} (h : CalcKnows cfg rows K l σ)
    (hlawful : ∀ ss d d', (∀ s ∈ ss, s.isLineage = true) → CalcsWell d → K d →
      calcSchema.replay (l ++ ss) d = .ok d' → LawfulCalc cfg rows d d')
    (hQ : ∀ o σ', CalcKnows cfg [] (fun _ => True) [] σ' → Q o σ') :
    Runs cfg c (addLineage args e result calculation inputs evidences) Q σ := by
  -- the rows are written, and the transaction commits
  have hwrite (reconciliation : Option CalculationReconciliation)
      (σ₁ : Cfg CalcRow CalcStmt Empty CalcDb) (h₁ : CalcKnows cfg rows K l σ₁) :
      Runs cfg c (do
        executeAll (evidences.map .insertEvidence ++ inputs.map .insertInput ++
          reconciliation.toList.map .insertReconciliation)
        recordEvent
        commit
        return (⟨calculation, inputs, reconciliation⟩ : RunOutcome)) Q σ₁ := by
    have hlineage : ∀ s ∈ evidences.map CalcStmt.insertEvidence ++
        inputs.map .insertInput ++ reconciliation.toList.map .insertReconciliation,
        s.isLineage = true := by
      intro s hs
      simp only [List.mem_append, List.mem_map] at hs
      obtain (⟨_, _, rfl⟩ | ⟨_, _, rfl⟩) | ⟨_, _, rfl⟩ := hs <;> rfl
    refine runs_bind (runs_executeAll h₁ (fun s hs => ?_) fun σ₂ h₂ => ?_)
    · have := hlineage s hs
      cases s with
      | insertRequest => cases this
      | insertAttempt | insertCalculation | insertInput | insertEvidence
        | insertReconciliation => rfl
    · refine runs_bind (runs_attempt (runs_bind (runs_commit h₂ ?_ fun σ₃ h₃ => hQ _ σ₃ h₃)))
      exact fun d d' => hlawful _ d d' hlineage
  refine runs_bind (runs_reads h (reads_selectOne _) fun reported σ₁ h₁ => ?_)
  cases reported with
  | none => exact hwrite none σ₁ h₁
  | some source => exact runs_bind (runs_uuid4 fun id => hwrite _ σ₁ h₁)

/-- **A run completes.** The race for the execution hash is never lost: the facts of the execution
have been locked since before it was looked for. -/
theorem runs_complete (hhashes : cfg.HashTellsFacts) {args : RunArgs}
    {e : Execution} {calcId : Uuid} {inputs : List CalculationInput}
    {evidences : List CalculationEvidence} {rs : List CalculationRequest} {p : ExecutionPayload}
    {Q : RunOutcome → Cfg CalcRow CalcStmt Empty CalcDb → Prop}
    (h : CalcKnows cfg rows K (rs.map .insertRequest) σ) (hrs : ∀ r ∈ rs, r.key ∈ rows)
    (hr : ∀ d, K d → e.request ∈ d.requests ∨ e.request ∈ rs) (hkey : e.request.key ∈ rows)
    (horg : e.request.organizationId = args.organizationId)
    (hhash : e.hash = cfg.executionHash p) (hfacts : ∀ id ∈ p.factIds, .fact id ∈ rows)
    (hnone : ∀ d, K d → d.executed args.organizationId e.hash = [])
    (hQ : ∀ o σ', CalcKnows cfg [] (fun _ => True) [] σ' → Q o σ') :
    Runs cfg c (complete args e calcId inputs evidences) Q σ := by
  refine runs_bind (runs_lift fun result _ => ?_)
  refine runs_bind (runs_lastNumber h hkey horg hr fun n σ₁ h₁ => ?_)
  refine runs_bind (runs_uuid4 fun attemptId => runs_bind (runs_execute h₁ fun σ₂ h₂ => ?_))
  refine runs_bind (runs_attempt (runs_bind (h₂.write not_false (fun σ₃ h₃ => ?_)
    fun σ₃ h₃ => ?_)))
  · refine runs_addLineage h₃ (fun ss d d' hss hd hK hreplay => ?_) hQ
    simp only [List.append_assoc, List.singleton_append] at hreplay
    refine LawfulCalc.attempt hd hrs hkey hK.2 horg.symm rfl rfl hreplay ?_
    intro d₁ hd₁ hnext hcheck hrest
    obtain ⟨hcalc, hrest⟩ := calc_replay_cons hrest
    obtain ⟨c', hstored⟩ : ∃ c', (calculationOf args e result calcId attemptId (n + 1)).stored =
        some c' := by
      simp only [CalcStmt.check, CalcStmt.fits, Bool.and_eq_true] at hcalc
      exact Option.isSome_iff_exists.mp hcalc.1.1.1
    have hcomplete : LawfulCalc cfg rows d₁ _ :=
      .complete hd₁ hnext hcheck hhashes rfl rfl hstored hhash hfacts hcalc
    obtain rfl := calcSchema.replay_eq_ok hrest
    exact hcomplete.trans (.same hcomplete.well (sameRuns_view hss _))
  · -- the calculation is refused, but not for its hash
    change Runs cfg c (if (!_) = true then _ else _) Q σ₃
    split
    · trivial
    · refine runs_bind (runs_existing h₃ (fun d => ?_) ?_ ?_)
      · rw [Schema.view_append, view_requests]
        rfl
      · exact fun _ _ _ => trivial
      · rintro o σ₄ ⟨d, hK, hne⟩ -
        exact absurd (hnone d hK.1) hne

/-! ## Runs -/

/-- Between two runs of a session nothing but requests is pending. -/
def Ready (cfg : CalcConfig) (σ : Cfg CalcRow CalcStmt Empty CalcDb) : Prop :=
  ∃ (rows : List CalcRow) (rs : List CalculationRequest),
    CalcKnows cfg rows (fun _ => True) (rs.map .insertRequest) σ ∧ ∀ r ∈ rs, r.key ∈ rows

theorem Ready.start (h : CalcKnows cfg [] (fun _ => True) [] σ) : Ready cfg σ :=
  ⟨[], [], h, fun _ hr => absurd hr List.not_mem_nil⟩

theorem runs_executeRun (hhashes : cfg.HashTellsFacts) {args : RunArgs}
    {v : VerifiedFormula} {s : SelectedInputs} {rs : List CalculationRequest}
    {Q : RunOutcome → Cfg CalcRow CalcStmt Empty CalcDb → Prop}
    (h : CalcKnows cfg rows K (rs.map .insertRequest) σ) (hrs : ∀ r ∈ rs, r.key ∈ rows)
    (hne : s.facts ≠ []) (hfacts : ∀ x ∈ s.facts, .fact x.2.id ∈ rows)
    (hQ : ∀ o σ', Ready cfg σ' → Q o σ') :
    Runs cfg c (executeRun cfg args v s (cfg.executionHash (executionPayload args v s))) Q σ := by
  refine runs_bind (runs_resolveRequest h hrs fun r rs' rows' σ₁ hrows hrs' hkey horg h₁ => ?_)
  -- an added request leaves the calculations as they are
  have hview (d : CalcDb) : (calcSchema.view (rs'.map .insertRequest) d).calculations =
      d.calculations := by
    rw [view_requests]
  have hlocked : ∀ id ∈ (executionPayload args v s).factIds, CalcRow.fact id ∈ rows' := by
    intro id hid
    obtain ⟨x, hx, rfl⟩ := mem_factIds.mp hid
    exact hrows (hfacts x hx)
  refine runs_bind (runs_existing h₁ hview (fun σ₂ hnil h₂ => ?_)
    fun o σ₂ _ h₂ => hQ o σ₂ ⟨rows', rs', h₂.forget, hrs'⟩)
  refine runs_bind (runs_uuid4 fun calcId => ?_)
  -- nobody else can execute this while its facts are locked
  have h₃ : CalcKnows cfg rows' (fun d => _ ∧ d.executed args.organizationId
      (cfg.executionHash (executionPayload args v s)) = []) _ σ₂ :=
    h₂.and (fun d d' hagree _ _ _ hd => ?_) hnil
  · refine runs_bind (runs_reads h₃ (reads_collectInputs _ _ _ _) fun collected σ₄ h₄ => ?_)
    obtain ⟨inputs, evidences⟩ := collected
    exact runs_complete hhashes h₄ hrs' (fun d hK => hK.1.2) hkey horg rfl hlocked
      (fun d hK => hK.2) fun o σ' h' => hQ o σ' (.start h')
  · obtain ⟨x, hx⟩ := List.exists_mem_of_ne_nil _ hne
    have hfact : x.2.id ∈ (executionPayload args v s).factIds := mem_factIds.mpr ⟨x, hx, rfl⟩
    have hsame := hagree _ (hlocked _ hfact) _ hfact
    refine List.filter_eq_nil_iff.mpr fun y hy hyp => ?_
    have hyp' := hyp
    simp only [Bool.and_eq_true, beq_iff_eq] at hyp'
    exact List.filter_eq_nil_iff.mp hd y ((hsame y hyp'.2).mp hy) hyp

/-- The failure of a run is recorded. -/
theorem runs_recordFailure {args : RunArgs} {hash : Option String}
    {checksums : Option (String × String)} {code : String}
    {Q : Unit → Cfg CalcRow CalcStmt Empty CalcDb → Prop}
    (h : CalcKnows cfg [] (fun _ => True) [] σ)
    (hQ : ∀ σ', CalcKnows cfg [] (fun _ => True) [] σ' → Q () σ') :
    Runs cfg c (recordFailure cfg args hash checksums code) Q σ := by
  refine runs_bind (runs_attempt (runs_bind ?_))
  refine @runs_resolveRequest _ _ _ _ _ _ _ [] _ h (fun _ hr => absurd hr List.not_mem_nil)
    fun r rs rows σ₁ _ hrs hkey horg h₁ => ?_
  refine runs_bind (runs_lastNumber h₁ hkey horg (fun d hK => hK.2) fun n σ₂ h₂ => ?_)
  refine runs_bind (runs_uuid4 fun id => runs_bind (runs_execute h₂ fun σ₃ h₃ => ?_))
  refine runs_bind (runs_attempt (runs_commit h₃ (fun d d' hd hK hreplay => ?_) hQ))
  refine LawfulCalc.attempt hd hrs hkey hK.2 horg.symm rfl rfl hreplay ?_
  intro d₁ hd₁ hnext hcheck hrest
  obtain rfl := Except.ok.inj hrest
  exact .fail hd₁ hnext hcheck rfl

/-- The handler leaves nothing pending, whatever it finds. -/
theorem wp_handle {args : RunArgs} {hash : Option String} {checksums : Option (String × String)}
    {err : CalcExc} :
    (calcDiscipline cfg).wp c (handle cfg args hash checksums err) Q (fun _ => Ready cfg) σ := by
  refine Discipline.wp_rollback fun σ₁ h₁ => ?_
  change (calcDiscipline cfg).wp c (Prog.bind (Prog.tryCatch _ _) _) Q (fun _ => Ready cfg) σ₁
  rw [Discipline.wp_bind, Discipline.wp_tryCatch]
  refine Discipline.wp_mono (fun _ σ' h' => h') (fun _ σ' _ => ?_)
    (runs_recordFailure h₁ fun σ' h' => (Ready.start h' : _))
  exact Discipline.wp_rollback fun σ₂ h₂ => .start h₂

/-- A part of a run, with its handler. -/
theorem wp_handled {p : CalcProg α} {args : RunArgs} {hash : Option String}
    {checksums : Option (String × String)} (h : Runs cfg c p Q σ) :
    (calcDiscipline cfg).wp c (p.tryCatch (handle cfg args hash checksums)) Q
      (fun _ => Ready cfg) σ := by
  rw [Discipline.wp_tryCatch]
  exact Discipline.wp_mono (fun _ _ h => h) (fun _ _ _ => wp_handle) h

/-- **A run** of a session leaves nothing but requests pending, whether it returns or raises. -/
theorem wp_runCalculation (hhashes : cfg.HashTellsFacts) {args : RunArgs}
    (h : Ready cfg σ) :
    (calcDiscipline cfg).wp c (runCalculation cfg args) (fun _ => Ready cfg) (fun _ => Ready cfg)
      σ := by
  obtain ⟨rows, rs, h, hrs⟩ := h
  have hattempt {f : Unit → CalcProg RunOutcome}
      (hf : (calcDiscipline cfg).wp c (f ()) (fun _ => Ready cfg) (fun _ => Ready cfg) σ) :
      (calcDiscipline cfg).wp c (attempt.bind f) (fun _ => Ready cfg) (fun _ => Ready cfg) σ := by
    rintro ⟨_, fails, _⟩
    cases fails with
    | true => exact ⟨rows, rs, h, hrs⟩
    | false => exact hf
  refine hattempt (hattempt ?_)
  change (calcDiscipline cfg).wp c (Prog.bind _ _) _ _ σ
  rw [Discipline.wp_bind]
  refine wp_handled (runs_reads h (reads_verifyFormula args) fun v σ₁ h₁ => ?_)
  change (calcDiscipline cfg).wp c (Prog.bind _ _) _ _ σ₁
  rw [Discipline.wp_bind]
  refine wp_handled (runs_selectInputs h₁ fun s rows' σ₂ hrows hne hfacts h₂ => wp_handled ?_)
  exact runs_executeRun hhashes h₂ (fun r hr => hrows (hrs r hr)) hne hfacts fun _ _ h => h

/-- A session commits what is pending between two of its runs. -/
theorem runs_commit_ready {Q : Unit → Cfg CalcRow CalcStmt Empty CalcDb → Prop}
    (h : Ready cfg σ) (hQ : ∀ σ', Ready cfg σ' → Q () σ') : Runs cfg c commit Q σ := by
  obtain ⟨rows, rs, h, hrs⟩ := h
  refine runs_commit h (fun d d' hd _ hreplay => ?_) fun σ' h' => hQ σ' (.start h')
  exact (LawfulCalc.requests hd hrs hreplay).1

/-- A session keeps the discipline. -/
theorem runs_session (hhashes : cfg.HashTellsFacts) (l : List RunArgs)
    (h : Ready cfg σ) : Runs cfg c (calculationSession cfg l) (fun _ _ => True) σ := by
  induction l generalizing σ with
  | nil => trivial
  | cons args rest ih =>
    change Runs cfg c (Prog.bind (Prog.tryCatch (Prog.bind _ _) _) _) _ σ
    rw [Runs, Discipline.wp_bind, Discipline.wp_tryCatch, Discipline.wp_bind]
    have hnext (σ₁ : Cfg CalcRow CalcStmt Empty CalcDb) (h₁ : Ready cfg σ₁) :
        Runs cfg c (do
          let commits ← Prog.ask fun i => .ret i.commits
          if commits then CalcProg.commit else pure ()
          calculationSession cfg rest) (fun _ _ => True) σ₁ := by
      refine runs_bind ?_
      rintro ⟨_, _, commits⟩
      cases commits with
      | true => exact runs_bind (runs_commit_ready h₁ fun σ₂ h₂ => ih h₂)
      | false => exact ih h₁
    exact Discipline.wp_mono (fun _ σ' h' => hnext σ' h') (fun _ σ' h' => hnext σ' h')
      (wp_runCalculation hhashes h)

/-- **The calculations keep their discipline.** -/
theorem calculation_sound (hhashes : cfg.HashTellsFacts) :
    (calcDiscipline cfg).Sound where
  body _ _ _ := Discipline.wp_mono (fun _ _ _ => trivial) (fun _ _ _ => trivial)
    (runs_session hhashes _ (.start (.start rfl)))
  env_inv tables d hd := hd.same ⟨rfl, rfl, rfl⟩
  env_evolves _ _ := ⟨fun _ h => h, fun _ h => h, fun _ h => h⟩
  env_agree _ r _ := by
    cases r with
    | request org fp => exact fun _ _ _ => ⟨Iff.rfl, fun _ => rfl⟩
    | fact id => exact fun _ _ _ _ => Iff.rfl

end FinanceIntelligence
