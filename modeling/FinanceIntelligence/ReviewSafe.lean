import FinanceIntelligence.ReviewDiscipline

/-!
# Reviews keep the discipline

Each review commits a `ReviewStep` of the candidate it has locked, whatever other
reviewers do in between. `Reviewing` is what a review knows: the rows it has
locked, as it found them, and the statements it has run.
-/

namespace FinanceIntelligence

open VersionChain FactProg FinancialFactService

/-! ## Statements -/

/-- The statement leaves the identities of rows alone. -/
def FactStmt.KeepsId : FactStmt → Prop
  | .updateFact _ set => ∀ f, (set f).id = f.id
  | _ => True

theorem FactDb.fact_eq_some {d : FactDb} {id : Uuid} {f : FinancialFact}
    (h : d.fact id = some f) : f ∈ d.facts ∧ f.id = id :=
  ⟨List.mem_of_find?_eq_some h, by simpa using List.find?_some h⟩

/-- A statement changes no row but its own. -/
theorem FactStmt.apply_agree {cfg : ReviewConfig} {s : FactStmt} (hs : s.KeepsId) (d : FactDb)
    {r : FactRow} (hr : s.target ≠ some r) : (reviewDiscipline cfg).agree r d (s.apply d) := by
  cases r with
  | candidate c =>
    cases s with
    | updateCandidate id set =>
      have hc : c ≠ id := fun hc => hr (by rw [hc]; rfl)
      simp [reviewDiscipline, FactStmt.apply, FactDb.updateCandidate, hc]
    | _ => rfl
  | fact i =>
    cases s with
    | insertFact f =>
      have hi : f.id ≠ i := fun hi => hr (by rw [← hi]; rfl)
      simp [reviewDiscipline, FactStmt.apply, FactDb.fact, hi]
    | updateFact id set =>
      have hi : id ≠ i := fun hi => hr (by rw [hi]; rfl)
      change (d.facts.map _).find? _ = d.facts.find? _
      induction d.facts with
      | nil => rfl
      | cons f l ih =>
        rw [List.map_cons, List.find?_cons, List.find?_cons, ih]
        by_cases hf : f.id = id
        · rw [if_pos hf, hs f, hf, show (id == i) = false by simpa using hi]
        · rw [if_neg hf]
    | _ => rfl

/-- Committed statements change no row but theirs. -/
theorem replay_agree {cfg : ReviewConfig} {l : List FactStmt} (hl : ∀ s ∈ l, s.KeepsId)
    {r : FactRow} (hr : ∀ s ∈ l, s.target ≠ some r) {d d' : FactDb}
    (h : factSchema.replay l d = .ok d') : (reviewDiscipline cfg).agree r d d' := by
  induction l generalizing d with
  | nil =>
    cases h
    exact (reviewDiscipline cfg).agree_refl r d'
  | cons s l ih =>
    rw [Schema.replay] at h
    split at h
    · refine (reviewDiscipline cfg).agree_trans r _ _ _
        (FactStmt.apply_agree (hl s List.mem_cons_self) d (hr s List.mem_cons_self)) ?_
      exact ih (fun s hs => hl s (List.mem_cons_of_mem _ hs))
        (fun s hs => hr s (List.mem_cons_of_mem _ hs)) h
    · cases h

/-! ## Commits -/

section Commits

variable {d d' : FactDb} {c : Uuid} {cand : FinancialFactCandidate} {dec : FactReviewDecision}
  {set : FinancialFactCandidate → FinancialFactCandidate}

theorem FactDb.updateCandidate_eq (hc : d.candidates c = some cand) :
    (d.updateCandidate c set).candidates = Function.update d.candidates c (some (set cand)) := by
  funext i
  by_cases hi : i = c
  · subst hi
    simp [FactDb.updateCandidate, hc]
  · simp [FactDb.updateCandidate, hi]

/-- A conflict is noted. -/
theorem ReviewStep.of_conflict (hc : d.candidates c = some cand)
    (hpending : cand.reviewStatus = .pending) (hid : (set cand).id = cand.id)
    (hset : (set cand).reviewStatus = .pending)
    (h : factSchema.replay [.updateCandidate c set] d = .ok d') : ReviewStep d d' := by
  obtain rfl : d.updateCandidate c set = d' := Except.ok.inj h
  exact .noted c cand _ hc hpending hid hset (FactDb.updateCandidate_eq hc) rfl rfl

/-- A candidate is decided, after what was done to the facts. -/
theorem ReviewStep.of_decision {facts : List FinancialFact} (hc : d.candidates c = some cand)
    (hpending : cand.reviewStatus = .pending) (hid : (set cand).id = cand.id)
    (hset : (set cand).reviewStatus ≠ .pending) (hv : (set cand).validationStatus ≠ .conflicted)
    (hdec : dec.candidateId = c) (hfacts : FactsChange d.facts facts)
    (h : factSchema.replay [.updateCandidate c set, .insertDecision dec] { d with facts } =
      .ok d') : ReviewStep d d' := by
  obtain rfl := Except.ok.inj h
  exact .decided c cand _ hc hpending hid hset hv
    (FactDb.updateCandidate_eq (d := { d with facts }) hc) ⟨dec, hdec, rfl⟩ hfacts

/-- The constraints of an inserted fact. -/
theorem fresh_of_check {f : FinancialFact} (h : (FactStmt.insertFact f).check d = true) :
    ∀ g ∈ d.facts, g.id ≠ f.id ∧ f.clashes g = false := by
  intro g hg
  simp only [FactStmt.check, Bool.and_eq_true, List.all_eq_true] at h
  have hg' := h.1 g hg
  simp only [bne_iff_ne, ne_eq, Bool.not_eq_true'] at hg'
  exact hg'

/-- A fact is created. -/
theorem FactsChange.of_insert {f : FinancialFact} (hroot : f.supersedesFactId = none)
    (hactive : f.validTo = none) (h : (FactStmt.insertFact f).check d = true) :
    FactsChange d.facts (d.facts ++ [f]) := by
  have hfresh := fresh_of_check h
  refine .grown ?_ (by rw [cores, cores, List.map_append]; exact List.prefix_append _ _)
  rw [List.map_append]
  refine .opened f.version (fun w hw => ?_) hroot hactive fun w hw hcurrent hkey => ?_
  · obtain ⟨g, hg, rfl⟩ := List.mem_map.mp hw
    exact (hfresh g hg).1
  · obtain ⟨g, hg, rfl⟩ := List.mem_map.mp hw
    have hclash := (hfresh g hg).2
    have hg' : g.validTo = none := hcurrent
    have hkey' : g.naturalKey = f.naturalKey := hkey
    simp [FinancialFact.clashes, FinancialFact.isActive, hactive, hg', hkey'] at hclash

/-- Closing a fact closes the version. -/
theorem map_version_close (l : List FinancialFact) (id : Uuid) (t : ℕ) :
    (l.map fun f => if f.id = id then f.close t else f).map (·.version) =
      (l.map (·.version)).map (VersionChain.close id t) := by
  rw [List.map_map, List.map_map]
  refine List.map_congr_left fun f _ => ?_
  rw [Function.comp_apply, Function.comp_apply, VersionChain.close]
  by_cases hf : f.id = id
  · rw [if_pos hf, if_pos (show f.version.id = id from hf)]
    rfl
  · rw [if_neg hf, if_neg (show f.version.id ≠ id from hf)]

/-- Closing a fact leaves the cores alone. -/
theorem cores_close (l : List FinancialFact) (id : Uuid) (t : ℕ) :
    cores (l.map fun f => if f.id = id then f.close t else f) = cores l := by
  rw [cores, cores, List.map_map]
  refine List.map_congr_left fun f _ => ?_
  rw [Function.comp_apply]
  split <;> rfl

/-- A fact is revised. -/
theorem FactsChange.of_revise {old f : FinancialFact} (hold : d.fact old.id = some old)
    (hcurrent : old.validTo = none) (hsucceeds : f.supersedesFactId = some old.id)
    (hkey : f.naturalKey = old.naturalKey) (hactive : f.validTo = none)
    (h : (FactStmt.insertFact f).check (d.updateFact old.id (.close f.validFrom)) = true) :
    FactsChange d.facts ((d.updateFact old.id (.close f.validFrom)).facts ++ [f]) := by
  have hfresh := fresh_of_check h
  refine .grown ?_ ?_
  · rw [List.map_append, FactDb.updateFact, map_version_close]
    refine .revised old.version f.version (List.mem_map_of_mem (FactDb.fact_eq_some hold).1)
      hcurrent (fun w hw => ?_) hsucceeds hkey hactive
    obtain ⟨g, hg, rfl⟩ := List.mem_map.mp hw
    have hg' := (hfresh _ (List.mem_map_of_mem hg)).1
    rwa [apply_ite FinancialFact.id, FinancialFact.close, ite_self] at hg'
  · have hcores : cores ((d.updateFact old.id (.close f.validFrom)).facts ++ [f]) =
        cores d.facts ++ [(f.id, f.core)] := by
      rw [← cores_close d.facts old.id f.validFrom, cores, List.map_append]
      rfl
    rw [hcores]
    exact List.prefix_append _ _

end Commits

/-! ## The rules of the instructions -/

/-- What a review knows inside its transaction: it has locked the candidate `c`
and the facts `o`, found them as they are, and run the statements `l`. -/
structure Reviewing (c : Uuid) (cand : FinancialFactCandidate) (o : Option FinancialFact)
    (l : List FactStmt) (σ : Cfg FactRow FactStmt Unit FactDb) : Prop where
  /-- the lock on the candidate -/
  held : FactRow.candidate c ∈ σ.held
  /-- the candidate -/
  row : σ.db.candidates c = some cand
  /-- the lock on the fact -/
  heldFact : ∀ f ∈ o, FactRow.fact f.id ∈ σ.held
  fact : ∀ f ∈ o, σ.db.fact f.id = some f
  /-- the statements -/
  pending : σ.pending = l
  /-- their rows are locked -/
  targets : ∀ s ∈ l, ∀ r ∈ s.target, r ∈ σ.held
  /-- they keep the identities -/
  keepsId : ∀ s ∈ l, s.KeepsId

section Rules

variable {cfg : ReviewConfig} {call : ReviewCall} {c : Uuid} {cand : FinancialFactCandidate}
  {o : Option FinancialFact} {l : List FactStmt} {σ : Cfg FactRow FactStmt Unit FactDb}

/-- A postcondition; what is raised does not matter. -/
abbrev Keeps {α : Type} (cfg : ReviewConfig) (call : ReviewCall) (p : FactProg α)
    (Q : α → Cfg FactRow FactStmt Unit FactDb → Prop) (σ : Cfg FactRow FactStmt Unit FactDb) :
    Prop :=
  (reviewDiscipline cfg).wp call p Q (fun _ _ => True) σ

/-- Other reviewers may go on, and more rows may be locked. -/
theorem Reviewing.rely (h : Reviewing c cand o l σ) {d : FactDb}
    (hd : (reviewDiscipline cfg).rely σ d) {held : Set FactRow} (hheld : σ.held ⊆ held) :
    Reviewing c cand o l { σ with held := held, db := d } where
  held := hheld h.held
  row := (hd.agree _ h.held).trans h.row
  heldFact f hf := hheld (h.heldFact f hf)
  fact f hf := (hd.agree _ (h.heldFact f hf)).trans (h.fact f hf)
  pending := h.pending
  targets s hs r hr := hheld (h.targets s hs r hr)
  keepsId := h.keepsId

theorem keeps_select {Q : FactDb → Cfg FactRow FactStmt Unit FactDb → Prop}
    (h : Reviewing c cand o l σ) (hQ : ∀ d σ', Reviewing c cand o l σ' → Q d σ') :
    Keeps cfg call select Q σ :=
  fun _ hd => hQ _ _ (h.rely hd subset_rfl)

theorem keeps_ensure {b : Bool} {message : String}
    {Q : Unit → Cfg FactRow FactStmt Unit FactDb → Prop} (hQ : b = true → Q () σ) :
    Keeps cfg call (ensure b message) Q σ := by
  cases b with
  | true => exact hQ rfl
  | false => trivial

theorem keeps_recordEvent {Q : Unit → Cfg FactRow FactStmt Unit FactDb → Prop} (hQ : Q () σ) :
    Keeps cfg call recordEvent Q σ := by
  intro i
  obtain ⟨_, _, fails⟩ := i
  cases fails with
  | true => trivial
  | false => exact hQ

/-- The candidate is locked as it is, or there is none. -/
theorem keeps_lockCandidate {q : FinancialFactCandidate → Bool}
    {Q : Option FinancialFactCandidate → Cfg FactRow FactStmt Unit FactDb → Prop}
    (hidle : σ.pending = []) (hnone : ∀ σ', Q none σ')
    (hQ : ∀ cand σ', CandidateInv σ'.db.decisions c cand → Reviewing c cand none [] σ' →
      Q (some cand) σ') : Keeps cfg call (lockCandidate c q) Q σ := by
  intro d hd
  refine ⟨fun hq => ?_, fun _ => hnone _⟩
  have hview : (reviewModel cfg).schema.view σ.pending d = d := by rw [hidle]; rfl
  rw [hview] at hq
  obtain ⟨cand, hcand, -⟩ := (Option.any_eq_true _ _).mp hq
  intro d' hd'
  have hrow : d'.candidates c = some cand :=
    (hd'.agree (.candidate c) (Set.mem_insert _ _)).trans hcand
  have hview' : (factSchema.view σ.pending d').candidates c = some cand := by rw [hidle]; exact hrow
  change Q ((factSchema.view σ.pending d').candidates c) _
  rw [hview']
  refine hQ cand _ (hd'.inv.candidates c cand hrow) ⟨Set.mem_insert _ _, hrow, ?_, ?_, hidle, ?_, ?_⟩
  all_goals intro _ h; cases h

/-- The fact is locked as it is, or there is none that qualifies. -/
theorem keeps_lockFact {id : Uuid} {q : FinancialFact → Bool}
    {Q : Option FinancialFact → Cfg FactRow FactStmt Unit FactDb → Prop}
    (h : Reviewing c cand none [] σ)
    (hnone : ∀ σ', Reviewing c cand none [] σ' → Q none σ')
    (hQ : ∀ f σ', q f = true → Reviewing c cand (some f) [] σ' → Q (some f) σ') :
    Keeps cfg call (lockFact id q) Q σ := by
  intro d hd
  refine ⟨fun hq => ?_, fun _ => hnone _ (h.rely hd subset_rfl)⟩
  have hview : (reviewModel cfg).schema.view σ.pending d = d := by rw [h.pending]; rfl
  rw [hview] at hq
  obtain ⟨f, hf, hqf⟩ := (Option.any_eq_true _ _).mp hq
  have hid := (FactDb.fact_eq_some hf).2
  have hlocked := h.rely hd (Set.subset_insert (FactRow.fact id) _)
  intro d' hd'
  have hlocked' := hlocked.rely hd' subset_rfl
  have hrow : d'.fact id = some f := (hd'.agree (.fact id) (Set.mem_insert _ _)).trans hf
  have hview' : (factSchema.view σ.pending d').fact id = some f := by rw [h.pending]; exact hrow
  change Q ((factSchema.view σ.pending d').fact id) _
  rw [hview']
  refine hQ f _ hqf ⟨hlocked'.held, hlocked'.row, ?_, ?_, hlocked'.pending, hlocked'.targets,
    hlocked'.keepsId⟩
  · intro g hg
    cases hg
    rw [hid]
    exact Set.mem_insert _ _
  · intro g hg
    cases hg
    rw [hid]
    exact hrow

theorem keeps_execute {s : FactStmt} {Q : Unit → Cfg FactRow FactStmt Unit FactDb → Prop}
    (h : Reviewing c cand o l σ) (hs : s.KeepsId)
    (hQ : ∀ σ', Reviewing c cand o (l ++ [s]) σ' → Q () σ') :
    Keeps cfg call (execute s) Q σ := by
  intro d hd
  refine ⟨fun _ => ?_, fun _ => ⟨id, trivial⟩⟩
  have h' : Reviewing c cand o l
      { σ with held := σ.held ∪ {r | r ∈ s.target.toList}, db := d } :=
    h.rely hd Set.subset_union_left
  refine hQ _ ⟨h'.held, h'.row, h'.heldFact, h'.fact, by rw [h.pending], ?_, ?_⟩
  · intro t ht r hr
    rcases List.mem_append.mp ht with ht | ht
    · exact h'.targets t ht r hr
    · rw [List.mem_singleton.mp ht] at hr
      exact Set.mem_union_right _ (Option.mem_toList.mpr hr)
  · intro t ht
    rcases List.mem_append.mp ht with ht | ht
    · exact h.keepsId t ht
    · rwa [List.mem_singleton.mp ht]

/-- Committing: the statements are a step of the locked candidate. -/
theorem keeps_commit {Q : Unit → Cfg FactRow FactStmt Unit FactDb → Prop}
    (h : Reviewing c cand o l σ)
    (hstep : ∀ d d', d.candidates c = some cand → (∀ f ∈ o, d.fact f.id = some f) →
      factSchema.replay l d = .ok d' → ReviewStep d d')
    (hQ : ∀ σ', Q () σ') : Keeps cfg call commit Q σ := by
  intro d hd
  have h' := h.rely hd subset_rfl
  refine ⟨fun d' hreplay => ?_, fun _ _ => ⟨id, trivial⟩⟩
  rw [h.pending] at hreplay
  have hs : ReviewStep d d' := hstep d d' h'.row h'.fact hreplay
  refine ⟨fun r hr => ?_, hs.inv hd.inv, hs, hQ _⟩
  exact replay_agree h.keepsId (fun s hs hr' => hr (h.targets s hs r hr')) hreplay

end Rules

/-! ## The reviews -/

section Programs

variable {cfg : ReviewConfig} {call : ReviewCall} {c : Uuid} {cand : FinancialFactCandidate}
  {σ : Cfg FactRow FactStmt Unit FactDb}

theorem keeps_verifyEvidenceAndBasis {org : Uuid} {target : Option String}
    {Q : ReportingBasis → Cfg FactRow FactStmt Unit FactDb → Prop}
    (h : Reviewing c cand none [] σ)
    (hQ : ∀ basis σ', Reviewing c cand none [] σ' → Q basis σ') :
    Keeps cfg call (verifyEvidenceAndBasis cfg org cand target) Q σ := by
  simp only [verifyEvidenceAndBasis, Prog.bind_eq, Prog.pure_eq, Keeps, Discipline.wp_bind]
  refine keeps_select h fun d σ' h => ?_
  split
  · trivial
  · split
    · trivial
    · split
      · trivial
      · exact hQ _ σ' h

theorem keeps_metricDefinition {id : Uuid} {o : Option FinancialFact} {l : List FactStmt}
    {Q : MetricDefinition → Cfg FactRow FactStmt Unit FactDb → Prop}
    (h : Reviewing c cand o l σ)
    (hQ : ∀ metric σ', metric.id = id → Reviewing c cand o l σ' → Q metric σ') :
    Keeps cfg call (metricDefinition id) Q σ := by
  simp only [metricDefinition, Prog.bind_eq, Prog.pure_eq, Keeps, Discipline.wp_bind]
  refine keeps_select h fun d σ' h => ?_
  split
  · trivial
  · rename_i metric hfind
    exact hQ metric σ' (by simpa using List.find?_some hfind) h

theorem keeps_lockActiveFact {key : FinancialFact.NaturalKey}
    {Q : Option FinancialFact → Cfg FactRow FactStmt Unit FactDb → Prop}
    (h : Reviewing c cand none [] σ)
    (hQ : ∀ existing o σ', Reviewing c cand o [] σ' → Q existing σ') :
    Keeps cfg call (lockActiveFact key) Q σ := by
  simp only [lockActiveFact, Prog.bind_eq, Prog.pure_eq, Keeps, Discipline.wp_bind]
  refine keeps_select h fun d σ' h => ?_
  split
  · exact hQ none none σ' h
  · exact keeps_lockFact h (fun σ' h => hQ none none σ' h) fun f σ' _ h => hQ _ _ σ' h
  · trivial

/-- The end of an approval: the candidate is approved, after what was done to
the facts. -/
theorem keeps_finishApproval {basis : ReportingBasis} {dec : FactReviewDecision}
    {o : Option FinancialFact} {l : List FactStmt} (h : Reviewing c cand o l σ)
    (hid : cand.id = c) (hpending : cand.reviewStatus = .pending) (hdec : dec.candidateId = c)
    (hfacts : ∀ d d', (∀ f ∈ o, d.fact f.id = some f) → factSchema.replay l d = .ok d' →
      ∃ facts, d' = { d with facts } ∧ FactsChange d.facts facts) :
    Keeps cfg call (finishApproval cand basis dec) (fun _ _ => True) σ := by
  simp only [finishApproval, Prog.bind_eq, Keeps, Discipline.wp_bind]
  refine keeps_execute h trivial fun σ' h => ?_
  refine keeps_execute h trivial fun σ' h => ?_
  refine keeps_recordEvent (keeps_commit h (fun d d' hc ho hreplay => ?_) fun _ => trivial)
  rw [List.append_assoc] at hreplay
  obtain ⟨d₁, hl, hrest⟩ := Schema.replay_append_eq_ok _ hreplay
  obtain ⟨facts, rfl, hchange⟩ := hfacts d d₁ ho hl
  rw [hid] at hrest
  exact .of_decision hc hpending rfl (by simp [approved]) (by simp [approved]) hdec hchange hrest

/-- `approve_candidate`. -/
theorem keeps_approveCandidate {org user : Uuid} {target notes : Option String}
    (hidle : σ.pending = []) :
    Keeps cfg call (approveCandidate cfg org c user target notes) (fun _ _ => True) σ := by
  simp only [approveCandidate, Prog.bind_eq, Keeps, Discipline.wp_bind]
  refine keeps_lockCandidate hidle (fun _ => trivial) fun cand σ' hinv h => ?_
  simp only [Discipline.wp_bind]
  refine keeps_ensure fun hpending => ?_
  have hpending : cand.reviewStatus = .pending := by simpa using hpending
  split
  · trivial
  · trivial
  · rename_i value metricId hvalue hmetric
    simp only [Discipline.wp_bind]
    refine keeps_verifyEvidenceAndBasis h fun basis σ' h => ?_
    refine keeps_metricDefinition h fun metric σ' _ h => ?_
    refine keeps_lockActiveFact h fun existing o σ' h => ?_
    intro nowUtc
    cases existing with
    | some f =>
      dsimp only
      split
      · -- the value is the active one
        simp only [Discipline.wp_bind]
        refine keeps_execute h trivial fun σ' h => ?_
        refine keeps_execute h trivial fun σ' h => ?_
        refine keeps_commit h (fun d d' hc _ hreplay => ?_) fun _ => trivial
        rw [hinv.keyed] at hreplay
        exact .of_decision hc hpending rfl (by simp [approved])
          (by simp [approved]) rfl (.same rfl) hreplay
      · -- it is another one
        simp only [Discipline.wp_bind]
        refine keeps_execute h trivial fun σ' h => ?_
        refine keeps_commit h (fun d d' hc _ hreplay => ?_) fun _ => trivial
        rw [hinv.keyed] at hreplay
        exact .of_conflict hc hpending rfl hpending hreplay
    | none =>
      simp only [Discipline.wp_bind]
      intro id createdAt
      refine keeps_execute h trivial fun σ' h => ?_
      refine keeps_finishApproval h hinv.keyed hpending hinv.keyed fun d d' _ hreplay => ?_
      rw [List.nil_append, Schema.replay] at hreplay
      split at hreplay
      · rename_i hcheck
        obtain rfl := Except.ok.inj hreplay
        exact ⟨_, rfl, .of_insert rfl rfl hcheck⟩
      · cases hreplay

/-- `approve_candidate_as_revision`. -/
theorem keeps_approveCandidateAsRevision {org expected user : Uuid} {target notes : Option String}
    (hidle : σ.pending = []) :
    Keeps cfg call (approveCandidateAsRevision cfg org c expected user target notes)
      (fun _ _ => True) σ := by
  simp only [approveCandidateAsRevision, Prog.bind_eq, Keeps, Discipline.wp_bind]
  refine keeps_lockCandidate hidle (fun _ => trivial) fun cand σ' hinv h => ?_
  simp only [Discipline.wp_bind]
  refine keeps_ensure fun hopen => ?_
  -- a candidate in conflict is pending too
  have hpending : cand.reviewStatus = .pending := by
    simp only [Bool.or_eq_true, beq_iff_eq] at hopen
    exact hopen.elim id hinv.conflicted
  split
  · rename_i value metricId hvalue hmetric
    simp only [Discipline.wp_bind]
    refine keeps_ensure fun _ => ?_
    refine keeps_verifyEvidenceAndBasis h fun basis σ' h => ?_
    refine keeps_lockFact h (fun _ _ => trivial) fun old σ' hold h => ?_
    have hcurrent : old.validTo = none := by
      simp only [Bool.and_eq_true, FinancialFact.isActive, Option.isNone_iff_eq_none] at hold
      exact hold.2
    simp only [Discipline.wp_bind]
    refine keeps_ensure fun hkey => ?_
    have hkey : old.naturalKey = keyOf cand metricId basis := by simpa using hkey
    refine keeps_ensure fun _ => ?_
    intro nowUtc
    refine keeps_metricDefinition h fun metric σ' hmetric h => ?_
    intro id createdAt
    refine keeps_execute h (fun _ => rfl) fun σ' h => ?_
    refine keeps_execute h trivial fun σ' h => ?_
    refine keeps_finishApproval h hinv.keyed hpending hinv.keyed fun d d' ho hreplay => ?_
    obtain ⟨d₁, hclose, hinsert⟩ := Schema.replay_append_eq_ok _ hreplay
    obtain rfl := Schema.replay_eq_ok _ hclose
    rw [Schema.replay] at hinsert
    split at hinsert
    · rename_i hcheck
      obtain rfl := Except.ok.inj hinsert
      have hsame : (newFact cand metric basis value user id.uuid (some old.id) nowUtc.now
          createdAt.now).naturalKey = old.naturalKey := by
        rw [hkey, ← hmetric]
        rfl
      exact ⟨_, rfl, .of_revise (ho old rfl) hcurrent rfl hsame rfl hcheck⟩
    · cases hinsert
  · trivial

/-- `reject_candidate`. -/
theorem keeps_rejectCandidate {org user : Uuid} {reasonCode : String} {notes : Option String}
    (hidle : σ.pending = []) :
    Keeps cfg call (rejectCandidate org c user reasonCode notes) (fun _ _ => True) σ := by
  simp only [rejectCandidate, Prog.bind_eq, Keeps, Discipline.wp_bind]
  refine keeps_lockCandidate hidle (fun _ => trivial) fun cand σ' hinv h => ?_
  simp only [Discipline.wp_bind]
  refine keeps_ensure fun hpending => ?_
  have hpending : cand.reviewStatus = .pending := by simpa using hpending
  refine keeps_execute h trivial fun σ' h => ?_
  refine keeps_execute h trivial fun σ' h => ?_
  refine keeps_recordEvent (keeps_commit h (fun d d' hc _ hreplay => ?_) fun _ => trivial)
  rw [hinv.keyed] at hreplay
  exact .of_decision hc hpending rfl (by simp [rejected])
    (by simp [rejected]) rfl (.same rfl) hreplay

end Programs

/-- **Every review keeps the discipline.** -/
theorem reviewDiscipline_sound (cfg : ReviewConfig) : (reviewDiscipline cfg).Sound where
  body call d _ := by
    cases call with
    | approve org c user target notes => exact keeps_approveCandidate rfl
    | approveAsRevision org c expected user target notes =>
      exact keeps_approveCandidateAsRevision rfl
    | reject org c user reasonCode notes => exact keeps_rejectCandidate rfl
  env_inv e := e.elim
  env_evolves e := e.elim
  env_agree e := e.elim

end FinanceIntelligence
