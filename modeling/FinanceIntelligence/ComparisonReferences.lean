import FinanceIntelligence.ComparisonCompleteness
import FinanceIntelligence.ComparisonPages
import Mathlib.Data.List.ProdSigma
import Mathlib.Data.List.Perm.Basic
import Mathlib.Data.List.Nodup

/-!
# A dataset and its cells

The measures and the references of a dataset are collected before the first rows are chosen, and a
measure takes the origin of the first cell that shows it. They describe the cells of the rows that
are kept if no row is dropped and every measure is shown from one origin.

* `mem_foldl_listMeasure` — **the measures** are those of some cells.
* `topN_eq_self_iff` — **no row is dropped** if there are few rows, of all or of each period.
* `describesCells_iff` — **when a dataset describes its cells**.
-/

namespace FinanceIntelligence

/-- The place of a row. -/
def DatasetRow.place (row : DatasetRow) : Uuid × Uuid := (row.institutionId, row.reportingPeriodId)

namespace ComparisonService

/-! ## Measures -/

section Measures

variable {payload : ComparisonRequestDTO Uuid} {xs : List (TargetMeasure × DatasetRowCell)}
  {ms : List MeasureItem}

/-- A measure that is listed was listed before, or has one of the cells. -/
theorem of_mem_foldl_listMeasure {m : MeasureItem} (h : m ∈ xs.foldl (listMeasure payload) ms) :
    m ∈ ms ∨ ∃ x ∈ xs, m = measureItem payload x.1 x.2 := by
  induction xs generalizing ms with
  | nil => exact .inl h
  | cons x xs ih =>
    obtain hlisted | ⟨y, hy, hm⟩ := ih h
    · rw [listMeasure] at hlisted
      split at hlisted
      · exact .inl hlisted
      · obtain hms | hnew := List.mem_append.mp hlisted
        · exact .inl hms
        · exact .inr ⟨x, List.mem_cons_self, List.mem_singleton.mp hnew⟩
    · exact .inr ⟨y, List.mem_cons_of_mem _ hy, hm⟩

/-- What is listed stays listed. -/
theorem subset_foldl_listMeasure (xs : List (TargetMeasure × DatasetRowCell))
    (ms : List MeasureItem) : ms ⊆ xs.foldl (listMeasure payload) ms := by
  induction xs generalizing ms with
  | nil => exact List.Subset.refl _
  | cons x xs ih =>
    refine List.Subset.trans ?_ (ih _)
    rw [listMeasure]
    split
    · exact List.Subset.refl _
    · exact List.subset_append_left _ _

/-- The measure of a cell is listed. -/
theorem exists_mem_foldl_listMeasure {x : TargetMeasure × DatasetRowCell} (hx : x ∈ xs) :
    ∃ m ∈ xs.foldl (listMeasure payload) ms, m.measureCode = x.1.key := by
  induction xs generalizing ms with
  | nil => exact absurd hx List.not_mem_nil
  | cons y xs ih =>
    obtain rfl | hx := List.mem_cons.mp hx
    · have hlisted : ∃ m ∈ listMeasure payload ms x, m.measureCode = x.1.key := by
        rw [listMeasure]
        split
        · rename_i hany
          simpa using hany
        · exact ⟨_, List.mem_append_right _ (List.mem_singleton_self _), rfl⟩
      obtain ⟨m, hm, hkey⟩ := hlisted
      exact ⟨m, subset_foldl_listMeasure xs _ hm, hkey⟩
    · exact ih hx

end Measures

/-! ## Rows that are dropped -/

/-- **No row is dropped** if there are few rows, of all or of each period. -/
theorem topN_eq_self_iff (payload : ComparisonRequestDTO Uuid) (rows : List DatasetRow) :
    topN payload rows = rows ↔ ∀ n ∈ payload.top_n,
      if payload.top_n_scope.val = "DATASET_ROWS_GLOBAL" then rows.length ≤ n.val.toNat
      else ∀ period, rows.countP (·.reportingPeriodId = period) ≤ n.val.toNat := by
  rw [topN]
  cases payload.top_n with
  | none => simp
  | some n =>
    simp only [Option.mem_def, Option.some.injEq, forall_eq']
    split
    · exact List.take_eq_self_iff _
    · exact takePerGroup_eq_self_iff

/-! ## Where a cell comes from -/

section Sources

variable {cfg : ComparisonConfig} {d : ComparisonDb} {organizationId : Uuid}
  {payload : ComparisonRequestDTO Uuid} {order : RowOrder} {defs : List SemanticMeasureDefinition}
  {found : MatchedRows} {scaleDiv : ℚ} {inst period : Uuid} {t : TargetMeasure}
  {cell : DatasetRowCell}

/-- A value is that of the fact or that of the calculation. -/
theorem selectValue_eq_some {policy : ValueSourcePolicy} {defaultOrigin : ValueOrigin}
    {matchedFact : Option MatchedFact} {matchedCalc : Option MatchedCalc} {v : SelectedValue}
    (h : selectValue policy defaultOrigin matchedFact matchedCalc = some v) :
    (∃ x, matchedFact = some x ∧ v = .ofFact x) ∨ ∃ x, matchedCalc = some x ∧ v = .ofCalc x := by
  cases policy <;> cases defaultOrigin <;> cases matchedFact <;> cases matchedCalc <;>
    simp_all [selectValue, eq_comm]

/-- What a reported cell shows. -/
structure ShowsFact (found : MatchedRows) (inst period : Uuid) (cell : DatasetRowCell)
    (x : MatchedFact) : Prop where
  /-- the fact is found -/
  mem : x ∈ found.facts
  institution : x.1.institutionId = inst
  period : x.1.reportingPeriodId = period
  origin : cell.valueOrigin = .sourceReported
  evidence : cell.evidenceId = some x.2
  /-- no calculation -/
  calculation : cell.calculationId = none

/-- What a derived cell shows. -/
structure ShowsCalculation (found : MatchedRows) (inst period : Uuid) (t : TargetMeasure)
    (cell : DatasetRowCell) (x : MatchedCalc) : Prop where
  /-- the calculation is found -/
  mem : x ∈ found.calculations
  /-- the formula of the measure -/
  formula : t.definition.derivedFormulaCode = some x.1.formulaCode
  institution : x.1.institutionId = inst
  period : x.1.reportingPeriodId = period
  origin : cell.valueOrigin = .systemDerived
  /-- no evidence -/
  evidence : cell.evidenceId = none
  calculation : cell.calculationId = some x.1.id

/-- **A cell** shows a fact or a calculation of its institution and period. -/
theorem cellAt_eq_some (h : found.cellAt payload scaleDiv inst period t = some cell) :
    (∃ x, ShowsFact found inst period cell x) ∨
      ∃ x, ShowsCalculation found inst period t cell x := by
  obtain ⟨v, hv, rfl⟩ := Option.map_eq_some_iff.mp h
  obtain ⟨x, hx, rfl⟩ | ⟨x, hx, rfl⟩ := selectValue_eq_some hv
  · obtain ⟨code, -, hx⟩ := Option.bind_eq_some_iff.mp hx
    obtain ⟨hmem, hkey⟩ := List.mem_filter.mp (List.mem_of_getLast? hx)
    simp only [Bool.and_eq_true, beq_iff_eq] at hkey
    exact .inl ⟨x, hmem, hkey.1.1, hkey.1.2, rfl, rfl, rfl⟩
  · obtain ⟨code, hcode, hx⟩ := Option.bind_eq_some_iff.mp hx
    obtain ⟨hmem, hkey⟩ := List.mem_filter.mp (List.mem_of_getLast? hx)
    simp only [Bool.and_eq_true, beq_iff_eq] at hkey
    exact .inr ⟨x, hmem, by rw [hcode, hkey.2], hkey.1.1, hkey.1.2, rfl, rfl, rfl⟩

/-- The key of a cell's measure. -/
theorem measureCode_cellAt (h : found.cellAt payload scaleDiv inst period t = some cell) :
    cell.measureCode = t.key := by
  obtain ⟨v, -, rfl⟩ := Option.map_eq_some_iff.mp h
  rfl

/-- Where a reported figure is shown. -/
theorem exists_reported_iff :
    (∃ x, found.cellAt payload scaleDiv inst period t = some x ∧
      x.valueOrigin = .sourceReported) ↔
      (found.fact inst period t.definition.reportedMetricCode).isSome ∧
        match policyOf payload with
        | .sourceReportedOnly | .preferSourceReported => True
        | .systemDerivedOnly => False
        | .preferSystemDerived =>
          ¬ (found.calculation inst period t.definition.derivedFormulaCode).isSome
        | .bothSeparateSeries => t.defaultOrigin = .sourceReported := by
  rw [MatchedRows.cellAt]
  cases policyOf payload <;> cases t.defaultOrigin <;>
    cases found.fact inst period t.definition.reportedMetricCode <;>
    cases found.calculation inst period t.definition.derivedFormulaCode <;>
    simp [selectValue, cellOf, SelectedValue.ofFact, SelectedValue.ofCalc]

/-- Where a derived figure is shown. -/
theorem exists_derived_iff :
    (∃ x, found.cellAt payload scaleDiv inst period t = some x ∧
      x.valueOrigin = .systemDerived) ↔
      (found.calculation inst period t.definition.derivedFormulaCode).isSome ∧
        match policyOf payload with
        | .systemDerivedOnly | .preferSystemDerived => True
        | .sourceReportedOnly => False
        | .preferSourceReported =>
          ¬ (found.fact inst period t.definition.reportedMetricCode).isSome
        | .bothSeparateSeries => t.defaultOrigin = .systemDerived := by
  rw [MatchedRows.cellAt]
  cases policyOf payload <;> cases t.defaultOrigin <;>
    cases found.fact inst period t.definition.reportedMetricCode <;>
    cases found.calculation inst period t.definition.derivedFormulaCode <;>
    simp [selectValue, cellOf, SelectedValue.ofFact, SelectedValue.ofCalc]

/-- What the schema and the reviews keep: two primary keys, and that a fact has the institution and
the period of the candidate that it was made of. -/
structure KeyedRows (d : ComparisonDb) : Prop where
  /-- the primary key of `calculations` -/
  calculations : (d.tables.calculations.map (·.id)).Nodup
  /-- the primary key of `candidate_evidence` -/
  evidence : (d.tables.tables.evidence.map (·.1)).Nodup
  /-- facts of one candidate -/
  candidates : ∀ f ∈ d.tables.facts, ∀ g ∈ d.tables.facts,
    f.sourceCandidateId = g.sourceCandidateId →
      f.institutionId = g.institutionId ∧ f.reportingPeriodId = g.reportingPeriodId

/-- The evidence of a fact belongs to its candidate. -/
theorem exists_evidence {f : FinancialFact} {x : MatchedFact}
    (h : usableFact cfg d organizationId payload f = .ok (some x)) :
    ∃ ev ∈ d.tables.tables.evidence, ev.1 = x.2 ∧ ev.2.candidateId = x.1.sourceCandidateId := by
  simp only [usableFact] at h
  split at h
  · cases h
  · split at h
    · split at h <;> cases h
    · split at h
      · rename_i row hrow
        obtain rfl := Option.some.inj (Except.ok.inj h)
        have hmem := List.mem_of_find?_eq_some hrow
        simp only [evidenceOf, mem_sortedBy, List.mem_flatMap, List.mem_filter, List.mem_map,
          Bool.and_eq_true, beq_iff_eq] at hmem
        obtain ⟨ev, ⟨hev, -, hcandidate⟩, -, -, rfl⟩ := hmem
        exact ⟨ev, hev, rfl, hcandidate⟩
      · split at h <;> cases h

/-- **A reference tells the place** of its cell. -/
theorem place_of_reference (hkeys : KeyedRows d)
    (hfound : matchRows cfg d organizationId payload order defs = .ok found)
    {inst' period' : Uuid} {t' : TargetMeasure} {cell' : DatasetRowCell}
    (h : found.cellAt payload scaleDiv inst period t = some cell)
    (h' : found.cellAt payload scaleDiv inst' period' t' = some cell')
    (href : (∃ id, cell.evidenceId = some id ∧ cell'.evidenceId = some id) ∨
      ∃ id, cell.calculationId = some id ∧ cell'.calculationId = some id) :
    inst = inst' ∧ period = period' := by
  obtain ⟨id, hid, hid'⟩ | ⟨id, hid, hid'⟩ := href
  · obtain ⟨x, hx⟩ | ⟨x, hx⟩ := cellAt_eq_some h
    · obtain ⟨y, hy⟩ | ⟨y, hy⟩ := cellAt_eq_some h'
      · obtain ⟨f, hf, hfx⟩ := (mem_found_facts hfound).mp hx.mem
        obtain ⟨g, hg, hgy⟩ := (mem_found_facts hfound).mp hy.mem
        obtain ⟨ev, hev, hevid, hevcand⟩ := exists_evidence hfx
        obtain ⟨ev', hev', hevid', hevcand'⟩ := exists_evidence hgy
        obtain rfl := usableFact_eq_some hfx
        obtain rfl := usableFact_eq_some hgy
        have hsame : ev = ev' := by
          refine List.inj_on_of_nodup_map hkeys.evidence hev hev' ?_
          rw [hevid, hevid']
          rw [hx.evidence] at hid
          rw [hy.evidence] at hid'
          exact Option.some.inj (hid.trans hid'.symm)
        subst hsame
        have hplace := hkeys.candidates x.1 (List.mem_filter.mp hf).1 y.1 (List.mem_filter.mp hg).1
          (hevcand.symm.trans hevcand')
        rwa [hx.institution, hx.period, hy.institution, hy.period] at hplace
      · rw [hy.evidence] at hid'
        cases hid'
    · rw [hx.evidence] at hid
      cases hid
  · obtain ⟨x, hx⟩ | ⟨x, hx⟩ := cellAt_eq_some h
    · rw [hx.calculation] at hid
      cases hid
    · obtain ⟨y, hy⟩ | ⟨y, hy⟩ := cellAt_eq_some h'
      · rw [hy.calculation] at hid'
        cases hid'
      · obtain ⟨row, hrow, hrowx⟩ := (mem_found_calculations hfound).mp hx.mem
        obtain ⟨row', hrow', hrowy⟩ := (mem_found_calculations hfound).mp hy.mem
        have hmem : ∀ row ∈ calculationRows d organizationId payload
            (neededDerivedFormulas (policyOf payload) defs), row.1 ∈ d.tables.calculations := by
          intro row hrow
          obtain ⟨c, hc, hrow⟩ := List.mem_flatMap.mp hrow
          obtain ⟨a, -, rfl⟩ := List.mem_map.mp hrow
          exact hc
        have hsame : row.1 = row'.1 := by
          refine List.inj_on_of_nodup_map hkeys.calculations (hmem _ hrow) (hmem _ hrow') ?_
          rw [← usableCalculation_eq_some hrowx, ← usableCalculation_eq_some hrowy]
          rw [hx.calculation] at hid
          rw [hy.calculation] at hid'
          exact Option.some.inj (hid.trans hid'.symm)
        rw [← hx.institution, ← hx.period, ← hy.institution, ← hy.period,
          usableCalculation_eq_some hrowx, usableCalculation_eq_some hrowy, hsame]
        exact ⟨rfl, rfl⟩

end Sources

/-! ## Conditions -/

section Conditions

variable (cfg : ComparisonConfig) (d : ComparisonDb) (organizationId : Uuid)
  (payload : ComparisonRequestDTO Uuid)

/-- The institutions and periods of the request. -/
def places : List (Uuid × Uuid) :=
  payload.institution_ids.val ×ˢ payload.reporting_period_ids.val

open Classical in
/-- The places with a figure for some target. -/
noncomputable def figuredPlaces : List (Uuid × Uuid) :=
  (places payload).filter fun p =>
    ∃ t, RequestTarget payload t ∧ FigureAt cfg d organizationId payload p.1 p.2 t

/-- There are no more places with a figure than rows are kept, of all or of each period. -/
def NothingCut : Prop :=
  ∀ n ∈ payload.top_n,
    if payload.top_n_scope.val = "DATASET_ROWS_GLOBAL" then
      (figuredPlaces cfg d organizationId payload).length ≤ n.val.toNat
    else ∀ period,
      (figuredPlaces cfg d organizationId payload).countP (·.2 = period) ≤ n.val.toNat

/-- A measure is shown from the origin that the policy prefers at one place, and from the other
one at another place. -/
def MixesOrigins : Prop :=
  ∃ t, RequestTarget payload t ∧ ∃ p ∈ places payload, ∃ q ∈ places payload,
    let reported (p : Uuid × Uuid) :=
      MeasureReported cfg d organizationId payload p.1 p.2 t.definition
    let derived (p : Uuid × Uuid) :=
      MeasureDerived cfg d organizationId payload p.1 p.2 t.definition
    match policyOf payload with
    | .preferSourceReported => reported p ∧ derived q ∧ ¬ reported q
    | .preferSystemDerived => derived p ∧ reported q ∧ ¬ derived q
    | .sourceReportedOnly | .systemDerivedOnly | .bothSeparateSeries => False

/-- **What a dataset says of its cells.** -/
structure DescribesCells (measures : List MeasureItem) (evidenceReferences : Finset Uuid)
    (calculationReferences : Finset Uuid) (rows : List DatasetRow) : Prop where
  /-- the measure of a cell is listed, with the origin of the cell -/
  listed : ∀ row ∈ rows, ∀ entry ∈ row.cells,
    ∃ m ∈ measures, m.measureCode = entry.2.measureCode
  /-- the cells of a measure have its origin -/
  origin : ∀ row ∈ rows, ∀ entry ∈ row.cells, ∀ m ∈ measures,
    m.measureCode = entry.2.measureCode → entry.2.valueOrigin = m.valueOrigin
  /-- a derived measure, and no other, has a formula -/
  formula : ∀ m ∈ measures, m.formulaCode.isSome ↔ m.valueOrigin = .systemDerived
  /-- the evidence of the cells -/
  evidence : ∀ id, id ∈ evidenceReferences ↔
    ∃ row ∈ rows, ∃ entry ∈ row.cells, entry.2.evidenceId = some id
  /-- the calculations of the cells -/
  calculations : ∀ id, id ∈ calculationReferences ↔
    ∃ row ∈ rows, ∃ entry ∈ row.cells, entry.2.calculationId = some id
  /-- no measure is without a cell -/
  used : ∀ m ∈ measures, ∃ row ∈ rows, ∃ entry ∈ row.cells,
    entry.2.measureCode = m.measureCode

theorem DescribesCells.of_mem_iff {measures : List MeasureItem}
    {evidence calculations : Finset Uuid} {rows rows' : List DatasetRow}
    (h : DescribesCells measures evidence calculations rows)
    (hmem : ∀ row, row ∈ rows ↔ row ∈ rows') :
    DescribesCells measures evidence calculations rows' where
  listed row hrow := h.listed row ((hmem row).mpr hrow)
  origin row hrow := h.origin row ((hmem row).mpr hrow)
  formula := h.formula
  evidence id := (h.evidence id).trans (exists_congr fun row => and_congr_left' (hmem row))
  calculations id := (h.calculations id).trans (exists_congr fun row => and_congr_left' (hmem row))
  used m hm := by
    obtain ⟨row, hrow, hentry⟩ := h.used m hm
    exact ⟨row, (hmem row).mp hrow, hentry⟩

end Conditions

/-! ## Cells and rows -/

section Rows

variable {cfg : ComparisonConfig} {d : ComparisonDb} {organizationId : Uuid}
  {payload : ComparisonRequestDTO Uuid} {order : RowOrder} {c : Comparison}
  {defs : List SemanticMeasureDefinition} {found : MatchedRows} {scaleDiv : ℚ}
  {sorted : List DatasetRow}

theorem map_pairsOf (insts : List ComparedInstitution) (periods : List ComparedPeriod) :
    (pairsOf insts periods).map (fun pair => (pair.1.id, pair.2.id)) =
      insts.map (·.id) ×ˢ periods.map (·.id) := by
  induction insts with
  | nil => rfl
  | cons inst insts ih =>
    rw [pairsOf, List.flatMap_cons, List.map_append, ← pairsOf, ih, List.map_cons,
      List.product_cons, List.map_map, List.map_map]
    rfl

/-- There is a row where there is a figure for some target. -/
theorem ComputedFrom.rowOf_eq_none_iff
    (hc : ComputedFrom cfg d organizationId payload order c defs found scaleDiv sorted)
    (pair : ComparedInstitution × ComparedPeriod) :
    rowOf payload c.cellAt c.targets pair = none ↔ ¬ ∃ t, RequestTarget payload t ∧
      FigureAt cfg d organizationId payload pair.1.id pair.2.id t := by
  constructor
  · rintro hnone ⟨t, ht, hfigure⟩
    have htarget := hc.mem_targets.mpr ht
    obtain ⟨cell, hcell⟩ := Option.isSome_iff_exists.mp ((hc.isSome_cellAt htarget).mpr hfigure)
    rw [(rowOf_eq_some htarget hcell).1] at hnone
    cases hnone
  · intro hnone
    by_contra hrow
    obtain ⟨row, hrow⟩ := Option.ne_none_iff_exists'.mp hrow
    obtain ⟨hne, -⟩ := rowOf_eq_some_iff.mp hrow
    obtain ⟨entry, hentry⟩ := List.exists_mem_of_ne_nil _ hne
    obtain ⟨t, ht, hcell⟩ := List.mem_filterMap.mp hentry
    obtain ⟨cell, hcell, -⟩ := Option.map_eq_some_iff.mp hcell
    exact hnone ⟨t, hc.mem_targets.mp ht, (hc.isSome_cellAt ht).mp (Option.isSome_of_mem hcell)⟩

/-- **The rows** are at the places with a figure. -/
theorem ComputedFrom.map_place
    (hc : ComputedFrom cfg d organizationId payload order c defs found scaleDiv sorted) :
    (c.assembly.rows.map DatasetRow.place).Perm (figuredPlaces cfg d organizationId payload) := by
  classical
  set figured := fun p : Uuid × Uuid => decide (∃ t, RequestTarget payload t ∧
    FigureAt cfg d organizationId payload p.1 p.2 t) with hfigured
  set insts := sortedInstitutions d organizationId payload
  set periods := sortedPeriods d organizationId payload
  have hrow (pair : ComparedInstitution × ComparedPeriod) :
      (rowOf payload c.cellAt c.targets pair).map DatasetRow.place =
        Option.guard figured (pair.1.id, pair.2.id) := by
    cases hrow : rowOf payload c.cellAt c.targets pair with
    | none =>
      have hnone := (hc.rowOf_eq_none_iff pair).mp hrow
      simp [Option.guard, hfigured, hnone]
    | some row =>
      have hsome := mt (hc.rowOf_eq_none_iff pair).mpr (by rw [hrow]; exact Option.some_ne_none row)
      obtain ⟨-, rfl⟩ := rowOf_eq_some_iff.mp hrow
      simp [Option.guard, hfigured, not_not.mp hsome, DatasetRow.place, datasetRow]
  have hplaces : ((pairsOf insts periods).map fun pair => (pair.1.id, pair.2.id)).Perm
      (places payload) := by
    rw [map_pairsOf]
    exact (map_sortedInstitutions hc.resolved).product (map_sortedPeriods hc.resolved)
  have hrows : c.assembly.rows.map DatasetRow.place =
      ((pairsOf insts periods).map fun pair => (pair.1.id, pair.2.id)).filter figured := by
    rw [(assemble_eq_ok hc.assembly).2, List.map_filterMap, ← List.filterMap_eq_filter,
      List.filterMap_map]
    exact List.filterMap_congr fun pair _ => hrow pair
  rw [hrows]
  exact hplaces.filter figured

/-- No two rows are at one place. -/
theorem ComputedFrom.nodup_place
    (hc : ComputedFrom cfg d organizationId payload order c defs found scaleDiv sorted) :
    (c.assembly.rows.map DatasetRow.place).Nodup := by
  obtain ⟨hinst, hperiod⟩ := nodup_of_resolveRequest hc.resolved
  exact hc.map_place.nodup_iff.mpr ((hinst.product hperiod).filter _)

/-- **No row is dropped** if there are few places with a figure. -/
theorem ComputedFrom.rows_eq_iff
    (hc : ComputedFrom cfg d organizationId payload order c defs found scaleDiv sorted) :
    c.rows = sorted ↔ NothingCut cfg d organizationId payload := by
  have hperm := ((perm_of_sortRows hc.order).map DatasetRow.place).trans hc.map_place
  have hlength : sorted.length = (figuredPlaces cfg d organizationId payload).length := by
    rw [← hperm.length_eq, List.length_map]
  have hcount (period : Uuid) : sorted.countP (·.reportingPeriodId = period) =
      (figuredPlaces cfg d organizationId payload).countP (·.2 = period) := by
    rw [← hperm.countP_eq, List.countP_map]
    rfl
  rw [hc.rows, topN_eq_self_iff, NothingCut, hlength]
  simp only [hcount]

/-- **Origins are mixed** if two cells of a target differ in theirs. -/
theorem ComputedFrom.mixesOrigins_iff
    (hc : ComputedFrom cfg d organizationId payload order c defs found scaleDiv sorted) :
    MixesOrigins cfg d organizationId payload ↔ ∃ t ∈ c.targets, ∃ p ∈ places payload,
      ∃ q ∈ places payload,
        (∃ x, c.cellAt p.1 p.2 t = some x ∧ x.valueOrigin = .sourceReported) ∧
          ∃ y, c.cellAt q.1 q.2 t = some y ∧ y.valueOrigin = .systemDerived := by
  have hreported (huses : (policyOf payload).usesReported) {t : TargetMeasure}
      (ht : t ∈ c.targets) (p : Uuid × Uuid) :=
    isSome_fact_measure_iff p.1 p.2 hc.matched huses (hc.definition_mem ht)
  have hderived (huses : (policyOf payload).usesDerived) {t : TargetMeasure}
      (ht : t ∈ c.targets) (p : Uuid × Uuid) :=
    isSome_calculation_measure_iff p.1 p.2 hc.matched huses (hc.definition_mem ht)
  simp only [MixesOrigins, ← hc.mem_targets, hc.cellAt, exists_reported_iff, exists_derived_iff]
  cases hpolicy : policyOf payload with
  | sourceReportedOnly => simp
  | systemDerivedOnly => simp
  | bothSeparateSeries =>
    refine iff_of_false (fun ⟨_, _, _, _, _, _, h⟩ => h) ?_
    rintro ⟨t, -, p, -, q, -, ⟨-, hp⟩, -, hq⟩
    exact absurd (hp.symm.trans hq) nofun
  | preferSourceReported =>
    refine exists_congr fun t => and_congr_right fun ht => exists_congr fun p =>
      and_congr_right fun _ => exists_congr fun q => and_congr_right fun _ => ?_
    rw [hreported (by rw [hpolicy]; rfl) ht p, hreported (by rw [hpolicy]; rfl) ht q,
      hderived (by rw [hpolicy]; rfl) ht q, and_true]
  | preferSystemDerived =>
    refine exists_congr fun t => and_congr_right fun ht => ?_
    have hmeasure (p q : Uuid × Uuid) :
        (MeasureDerived cfg d organizationId payload p.1 p.2 t.definition ∧
          MeasureReported cfg d organizationId payload q.1 q.2 t.definition ∧
          ¬ MeasureDerived cfg d organizationId payload q.1 q.2 t.definition) ↔
        ((found.fact q.1 q.2 t.definition.reportedMetricCode).isSome ∧
          ¬ (found.calculation q.1 q.2 t.definition.derivedFormulaCode).isSome) ∧
          (found.calculation p.1 p.2 t.definition.derivedFormulaCode).isSome ∧ True := by
      rw [hreported (by rw [hpolicy]; rfl) ht q, hderived (by rw [hpolicy]; rfl) ht q,
        hderived (by rw [hpolicy]; rfl) ht p]
      tauto
    constructor
    · rintro ⟨p, hp, q, hq, h⟩
      exact ⟨q, hq, p, hp, (hmeasure p q).mp h⟩
    · rintro ⟨q, hq, p, hp, h⟩
      exact ⟨p, hp, q, hq, (hmeasure p q).mpr h⟩

/-- A row that is kept was there before. -/
theorem ComputedFrom.mem_of_mem_rows
    (hc : ComputedFrom cfg d organizationId payload order c defs found scaleDiv sorted)
    {row : DatasetRow} (hrow : row ∈ c.rows) : row ∈ c.assembly.rows := by
  rw [hc.rows] at hrow
  exact (perm_of_sortRows hc.order).mem_iff.mp ((topN_sublist payload sorted).subset hrow)

/-- The place of a row is one of the request. -/
theorem ComputedFrom.place_mem
    (hc : ComputedFrom cfg d organizationId payload order c defs found scaleDiv sorted)
    {row : DatasetRow} (hrow : row ∈ c.assembly.rows) : row.place ∈ places payload :=
  (List.mem_filter.mp (hc.map_place.mem_iff.mp (List.mem_map_of_mem hrow))).1

/-- The cells that were collected are those of all rows. -/
theorem ComputedFrom.mem_filled_iff
    (hc : ComputedFrom cfg d organizationId payload order c defs found scaleDiv sorted)
    {x : TargetMeasure × DatasetRowCell} :
    x ∈ filled c.cellAt (allSlots c.targets (sortedInstitutions d organizationId payload)
        (sortedPeriods d organizationId payload)) ↔
      x.1 ∈ c.targets ∧ ∃ row ∈ c.assembly.rows,
        c.cellAt row.institutionId row.reportingPeriodId x.1 = some x.2 := by
  rw [mem_filled]
  constructor
  · rintro ⟨s, hs, htarget, hcell⟩
    obtain ⟨hinst, hperiod, ht⟩ := mem_allSlots.mp hs
    rw [← htarget]
    obtain ⟨row, hrow, hi, hp, -⟩ := hc.exists_row
      ((map_sortedInstitutions hc.resolved).mem_iff.mp (List.mem_map_of_mem hinst))
      ((map_sortedPeriods hc.resolved).mem_iff.mp (List.mem_map_of_mem hperiod)) ht hcell
    refine ⟨ht, row, hrow, ?_⟩
    rw [hi, hp]
    exact hcell
  · rintro ⟨ht, row, hrow, hcell⟩
    obtain ⟨hinst, hperiod⟩ := List.mem_product.mp (hc.place_mem hrow)
    obtain ⟨pair, hpair, hi, hp⟩ := exists_pair hc.resolved hinst hperiod
    obtain ⟨hpairi, hpairp⟩ := mem_pairsOf.mp hpair
    refine ⟨⟨pair.1, pair.2, x.1⟩, mem_allSlots.mpr ⟨hpairi, hpairp, ht⟩, rfl, ?_⟩
    rw [Slot.cell, hi, hp]
    exact hcell

/-- Some cell of the rows, in terms of the places. -/
theorem ComputedFrom.exists_entry_iff
    (hc : ComputedFrom cfg d organizationId payload order c defs found scaleDiv sorted)
    {P : DatasetRowCell → Prop} :
    (∃ row ∈ c.assembly.rows, ∃ entry ∈ row.cells, P entry.2) ↔
      ∃ x ∈ filled c.cellAt (allSlots c.targets (sortedInstitutions d organizationId payload)
        (sortedPeriods d organizationId payload)), P x.2 := by
  simp only [hc.mem_filled_iff]
  constructor
  · rintro ⟨row, hrow, entry, hentry, hP⟩
    obtain ⟨t, ht, cell, hcell, rfl⟩ := (hc.mem_row_cells hrow).mp hentry
    exact ⟨(t, cell), ⟨ht, row, hrow, hcell⟩, hP⟩
  · rintro ⟨x, ⟨ht, row, hrow, hcell⟩, hP⟩
    exact ⟨row, hrow, _, (hc.mem_row_cells hrow).mpr ⟨x.1, ht, x.2, hcell, rfl⟩, hP⟩

/-- The measures of a dataset are those of its cells, before rows are dropped. -/
theorem ComputedFrom.mem_measures
    (hc : ComputedFrom cfg d organizationId payload order c defs found scaleDiv sorted)
    {m : MeasureItem} (hm : m ∈ c.assembly.measures) :
    ∃ row ∈ c.assembly.rows, ∃ t ∈ c.targets, ∃ cell,
      c.cellAt row.institutionId row.reportingPeriodId t = some cell ∧
        m = measureItem payload t cell := by
  rw [(assemble_eq_ok hc.assembly).1.measures] at hm
  obtain hnil | ⟨x, hx, rfl⟩ := of_mem_foldl_listMeasure hm
  · exact absurd hnil List.not_mem_nil
  · obtain ⟨ht, row, hrow, hcell⟩ := hc.mem_filled_iff.mp hx
    exact ⟨row, hrow, x.1, ht, x.2, hcell, rfl⟩

/-- The measure of a cell is listed. -/
theorem ComputedFrom.exists_measure
    (hc : ComputedFrom cfg d organizationId payload order c defs found scaleDiv sorted)
    {row : DatasetRow} (hrow : row ∈ c.assembly.rows) {t : TargetMeasure} (ht : t ∈ c.targets)
    {cell : DatasetRowCell}
    (hcell : c.cellAt row.institutionId row.reportingPeriodId t = some cell) :
    ∃ m ∈ c.assembly.measures, m.measureCode = t.key := by
  rw [(assemble_eq_ok hc.assembly).1.measures]
  exact exists_mem_foldl_listMeasure (x := (t, cell))
    (hc.mem_filled_iff.mpr ⟨ht, row, hrow, hcell⟩)

/-- A target is told by its key. -/
theorem ComputedFrom.key_inj
    (hc : ComputedFrom cfg d organizationId payload order c defs found scaleDiv sorted)
    {t u : TargetMeasure} (ht : t ∈ c.targets) (hu : u ∈ c.targets) (h : t.key = u.key) :
    t = u := by
  rw [hc.targets] at ht hu
  exact targetMeasures_key_inj (resolveRequest_eq_ok hc.resolved).1 ht hu h

/-- The dataset describes all rows, if no measure mixes the origins. -/
theorem ComputedFrom.describesCells
    (hc : ComputedFrom cfg d organizationId payload order c defs found scaleDiv sorted)
    (hmix : ¬ MixesOrigins cfg d organizationId payload) :
    DescribesCells c.assembly.measures c.assembly.evidenceRefIds.toFinset
      c.assembly.calcRefIds.toFinset c.assembly.rows where
  listed row hrow entry hentry := by
    obtain ⟨t, ht, cell, hcell, rfl⟩ := (hc.mem_row_cells hrow).mp hentry
    obtain ⟨m, hm, hkey⟩ := hc.exists_measure hrow ht hcell
    rw [hc.cellAt] at hcell
    exact ⟨m, hm, hkey.trans (measureCode_cellAt hcell).symm⟩
  origin row hrow entry hentry m hm hkey := by
    obtain ⟨t, ht, cell, hcell, rfl⟩ := (hc.mem_row_cells hrow).mp hentry
    obtain ⟨row', hrow', u, hu, cell', hcell', rfl⟩ := hc.mem_measures hm
    have hcode : cell.measureCode = t.key := by
      rw [hc.cellAt] at hcell
      exact measureCode_cellAt hcell
    obtain rfl := hc.key_inj hu ht (hkey.trans hcode)
    -- two cells of one target
    by_contra hne
    refine hmix (hc.mixesOrigins_iff.mpr ⟨u, hu, ?_⟩)
    have hp := hc.place_mem hrow
    have hq := hc.place_mem hrow'
    cases horigin : cell.valueOrigin with
    | sourceReported =>
      refine ⟨_, hp, _, hq, ⟨cell, hcell, horigin⟩, cell', hcell', ?_⟩
      cases horigin' : cell'.valueOrigin with
      | sourceReported => exact absurd (horigin.trans horigin'.symm) hne
      | systemDerived => rfl
    | systemDerived =>
      refine ⟨_, hq, _, hp, ⟨cell', hcell', ?_⟩, cell, hcell, horigin⟩
      cases horigin' : cell'.valueOrigin with
      | sourceReported => rfl
      | systemDerived => exact absurd (horigin.trans horigin'.symm) hne
  formula m hm := by
    obtain ⟨row, hrow, t, ht, cell, hcell, rfl⟩ := hc.mem_measures hm
    rw [hc.cellAt] at hcell
    simp only [measureItem]
    obtain ⟨x, hx⟩ | ⟨x, hx⟩ := cellAt_eq_some hcell
    · rw [hx.origin]
      exact iff_of_false nofun nofun
    · rw [hx.origin, hx.formula]
      exact iff_of_true rfl rfl
  evidence id := by
    rw [List.mem_toFinset, (assemble_eq_ok hc.assembly).1.evidence, List.mem_flatMap,
      hc.exists_entry_iff (P := fun cell => cell.evidenceId = some id)]
    simp only [Option.mem_toList]
  calculations id := by
    rw [List.mem_toFinset, (assemble_eq_ok hc.assembly).1.calculations, List.mem_flatMap,
      hc.exists_entry_iff (P := fun cell => cell.calculationId = some id)]
    simp only [Option.mem_toList]
  used m hm := by
    obtain ⟨row, hrow, t, ht, cell, hcell, rfl⟩ := hc.mem_measures hm
    refine ⟨row, hrow, _, (hc.mem_row_cells hrow).mpr ⟨t, ht, cell, hcell, rfl⟩, ?_⟩
    rw [hc.cellAt] at hcell
    exact measureCode_cellAt hcell

/-- A row that is dropped leaves a reference behind. -/
theorem ComputedFrom.exists_reference
    (hc : ComputedFrom cfg d organizationId payload order c defs found scaleDiv sorted)
    {row : DatasetRow} (hrow : row ∈ c.assembly.rows) :
    ∃ t ∈ c.targets, ∃ cell, c.cellAt row.institutionId row.reportingPeriodId t = some cell ∧
      ((∃ id, cell.evidenceId = some id) ∨ ∃ id, cell.calculationId = some id) := by
  have hne : row.cells ≠ [] := by
    rw [(assemble_eq_ok hc.assembly).2] at hrow
    obtain ⟨pair, -, hpair⟩ := List.mem_filterMap.mp hrow
    obtain ⟨hne, rfl⟩ := rowOf_eq_some_iff.mp hpair
    exact hne
  obtain ⟨entry, hentry⟩ := List.exists_mem_of_ne_nil _ hne
  obtain ⟨t, ht, cell, hcell, rfl⟩ := (hc.mem_row_cells hrow).mp hentry
  refine ⟨t, ht, cell, hcell, ?_⟩
  rw [hc.cellAt] at hcell
  obtain ⟨x, hx⟩ | ⟨x, hx⟩ := cellAt_eq_some hcell
  · exact .inl ⟨x.2, hx.evidence⟩
  · exact .inr ⟨x.1.id, hx.calculation⟩

/-- Rows at one place are the same. -/
theorem ComputedFrom.eq_of_place
    (hc : ComputedFrom cfg d organizationId payload order c defs found scaleDiv sorted)
    {row row' : DatasetRow} (hrow : row ∈ c.assembly.rows) (hrow' : row' ∈ c.assembly.rows)
    (h : row.institutionId = row'.institutionId ∧
      row.reportingPeriodId = row'.reportingPeriodId) : row = row' :=
  List.inj_on_of_nodup_map hc.nodup_place hrow hrow' (Prod.ext h.1 h.2)

/-- A dataset that describes its cells has all rows. -/
theorem ComputedFrom.rows_eq_of_describes (hkeys : KeyedRows d)
    (hc : ComputedFrom cfg d organizationId payload order c defs found scaleDiv sorted)
    (h : DescribesCells c.assembly.measures c.assembly.evidenceRefIds.toFinset
      c.assembly.calcRefIds.toFinset c.rows) : c.rows = sorted := by
  have hperm := perm_of_sortRows hc.order
  have hsub : c.rows.Sublist sorted := by
    rw [hc.rows]
    exact topN_sublist payload sorted
  have hmem (row : DatasetRow) (hrow : row ∈ c.rows) : row ∈ c.assembly.rows :=
    hc.mem_of_mem_rows hrow
  -- every row is kept, since its references are those of kept rows only
  have hall : ∀ row ∈ c.assembly.rows, row ∈ c.rows := by
    intro row hrow
    obtain ⟨t, ht, cell, hcell, href⟩ := hc.exists_reference hrow
    have hcell' := hcell
    rw [hc.cellAt] at hcell'
    have hfilled := (hc.mem_filled_iff (x := (t, cell))).mpr ⟨ht, row, hrow, hcell⟩
    have hcollected := (assemble_eq_ok hc.assembly).1
    obtain ⟨id, hid⟩ | ⟨id, hid⟩ := href
    · obtain ⟨row', hrow', entry, hentry, hid'⟩ := (h.evidence id).mp (by
        rw [List.mem_toFinset, hcollected.evidence, List.mem_flatMap]
        exact ⟨(t, cell), hfilled, by simp [hid]⟩)
      obtain ⟨t', ht', cell'', hcell'', rfl⟩ := (hc.mem_row_cells (hmem _ hrow')).mp hentry
      rw [hc.cellAt] at hcell''
      rw [hc.eq_of_place hrow (hmem _ hrow') (place_of_reference hkeys hc.matched hcell' hcell''
        (.inl ⟨id, hid, hid'⟩))]
      exact hrow'
    · obtain ⟨row', hrow', entry, hentry, hid'⟩ := (h.calculations id).mp (by
        rw [List.mem_toFinset, hcollected.calculations, List.mem_flatMap]
        exact ⟨(t, cell), hfilled, by simp [hid]⟩)
      obtain ⟨t', ht', cell'', hcell'', rfl⟩ := (hc.mem_row_cells (hmem _ hrow')).mp hentry
      rw [hc.cellAt] at hcell''
      rw [hc.eq_of_place hrow (hmem _ hrow') (place_of_reference hkeys hc.matched hcell' hcell''
        (.inr ⟨id, hid, hid'⟩))]
      exact hrow'
  have hnodup : sorted.Nodup := hperm.nodup_iff.mpr (List.Nodup.of_map _ hc.nodup_place)
  refine hsub.eq_of_length_le ?_
  exact (hnodup.subperm fun row hrow => hall row (hperm.mem_iff.mp hrow)).length_le

/-- **A dataset describes its cells** exactly when no row is dropped and no measure mixes the
origins. -/
theorem ComputedFrom.describesCells_rows_iff (hkeys : KeyedRows d)
    (hc : ComputedFrom cfg d organizationId payload order c defs found scaleDiv sorted) :
    DescribesCells c.assembly.measures c.assembly.evidenceRefIds.toFinset
        c.assembly.calcRefIds.toFinset c.rows ↔
      NothingCut cfg d organizationId payload ∧ ¬ MixesOrigins cfg d organizationId payload := by
  have hperm := perm_of_sortRows hc.order
  constructor
  · intro h
    have hrows := hc.rows_eq_of_describes hkeys h
    refine ⟨hc.rows_eq_iff.mp hrows, fun hmix => ?_⟩
    obtain ⟨t, ht, p, hp, q, hq, ⟨x, hx, hxo⟩, y, hy, hyo⟩ := hc.mixesOrigins_iff.mp hmix
    have hkept {p : Uuid × Uuid} (hp : p ∈ places payload) {cell : DatasetRowCell}
        (hcell : c.cellAt p.1 p.2 t = some cell) :
        ∃ row ∈ c.rows, (t.key, cell) ∈ row.cells := by
      obtain ⟨hinst, hperiod⟩ := List.mem_product.mp hp
      obtain ⟨row, hrow, -, -, hentry⟩ := hc.exists_row hinst hperiod ht hcell
      refine ⟨row, ?_, hentry⟩
      rw [hrows]
      exact hperm.mem_iff.mpr hrow
    have hcode {p : Uuid × Uuid} {cell : DatasetRowCell}
        (hcell : c.cellAt p.1 p.2 t = some cell) : cell.measureCode = t.key := by
      rw [hc.cellAt] at hcell
      exact measureCode_cellAt hcell
    obtain ⟨row, hrow, hentry⟩ := hkept hp hx
    obtain ⟨row', hrow', hentry'⟩ := hkept hq hy
    obtain ⟨m, hm, hkey⟩ := h.listed row hrow _ hentry
    have hreported := h.origin row hrow _ hentry m hm hkey
    have hderived := h.origin row' hrow' _ hentry' m hm
      (hkey.trans ((hcode hx).trans (hcode hy).symm))
    rw [← hreported, hxo, hyo] at hderived
    cases hderived
  · rintro ⟨hcut, hmix⟩
    have h := hc.describesCells hmix
    have hrows := hc.rows_eq_iff.mpr hcut
    have hmem (row : DatasetRow) : row ∈ c.assembly.rows ↔ row ∈ c.rows := by
      rw [hrows]
      exact hperm.mem_iff.symm
    exact h.of_mem_iff hmem

end Rows

/-- **A dataset describes its cells** exactly when no row is dropped and no measure mixes the
origins. The references are collected before rows are dropped for their rank, and a measure with
figures of both origins has one entry for the two. -/
theorem describesCells_iff {cfg : ComparisonConfig} {organizationId : Uuid}
    {payload : ComparisonRequestDTO Uuid} {order : RowOrder} {stamp : RunStamp}
    {s s' : ComparisonStore} {response : ComparisonResponse} (hkeys : KeyedRows s.db)
    (h : executeComparison cfg organizationId payload order stamp s = .ok (response, s')) :
    ∃ c, compute cfg s.db organizationId payload order = .ok c ∧
      s' = s.add (datasetRecord organizationId response c.rows) ∧
      (DescribesCells response.resultDataset.measures response.resultDataset.evidenceReferences
          response.resultDataset.calculationReferences c.rows ↔
        NothingCut cfg s.db organizationId payload ∧
          ¬ MixesOrigins cfg s.db organizationId payload) := by
  obtain ⟨c, hc, rfl, hs'⟩ := executeComparison_eq_ok h
  obtain ⟨defs, found, scaleDiv, sorted, hfrom⟩ := compute_eq_ok hc
  exact ⟨c, hc, hs', hfrom.describesCells_rows_iff hkeys⟩

/-! ## The loans of two years -/

/-- Loans of two years. -/
def loansTables : ReferenceTables :=
  { ratioTables with
    periods :=
      [{ id := 3, organizationId := 1, periodType := "YEAR", periodPresentation := .fullYear
         fiscalYear := 2024, startDate := 738885, endDate := 739250, comparisonKey := "FY" },
        { id := 4, organizationId := 1, periodType := "YEAR", periodPresentation := .fullYear
          fiscalYear := 2023, startDate := 738520, endDate := 738884, comparisonKey := "FY" }]
    reviewed :=
      { ratioTables.reviewed with
        facts := [yearFigure 11 21 "TOTAL_LOANS" 200,
          { yearFigure 12 22 "TOTAL_LOANS" 150 with reportingPeriodId := 4 }] } }

/-- The better one of two years. -/
def bestLoansRequest : ComparisonRequestDTO Uuid :=
  { growthRequest with
    semantic_measures := ⟨[{ semantic_measure_code := "TOTAL_LOANS"
                             preferred_origin := ⟨"AUTO", auto_mem_preferredOrigins⟩ }], by decide⟩
    reporting_period_ids := ⟨[3, 4], by decide⟩
    top_n := some ⟨1, by decide⟩
    top_n_scope := ⟨"DATASET_ROWS_GLOBAL", by decide⟩ }

/-- The answer has one row, and the evidence of two. -/
theorem bestLoans_answered : ∃ response s' c,
    executeComparison asciiConfig 1 bestLoansRequest .inserted ⟨100, 101, 0⟩
      (bankYear loansTables) = .ok (response, s') ∧
    compute asciiConfig (bankYear loansTables).db 1 bestLoansRequest .inserted = .ok c ∧
    32 ∈ response.resultDataset.evidenceReferences ∧
    ∀ row ∈ c.rows, ∀ entry ∈ row.cells, entry.2.evidenceId ≠ some 32 := by
  have hok : (executeComparison asciiConfig 1 bestLoansRequest .inserted ⟨100, 101, 0⟩
      (bankYear loansTables)).isOk = true := by decide +kernel
  have hrefs : (compute asciiConfig (bankYear loansTables).db 1 bestLoansRequest
      .inserted).toOption.map (fun c => decide (32 ∈ c.assembly.evidenceRefIds ∧
        ∀ row ∈ c.rows, ∀ entry ∈ row.cells, entry.2.evidenceId ≠ some 32)) = some true := by
    decide +kernel
  obtain ⟨⟨response, s'⟩, h⟩ := exists_of_isOk hok
  obtain ⟨c, hc, hresponse, -⟩ := executeComparison_eq_ok h
  rw [hc] at hrefs
  obtain ⟨hmem, hnone⟩ := of_decide_eq_true (Option.some.inj hrefs)
  refine ⟨response, s', c, h, hc, ?_, hnone⟩
  rw [hresponse]
  exact List.mem_toFinset.mpr hmem

/-- The rows of the two years have their keys. -/
theorem keyedRows_loans : KeyedRows (bankYear loansTables).db where
  calculations := List.nodup_nil
  evidence := by decide
  candidates := by decide

/-- The answer about the best year. -/
theorem describesCells_iff_bestLoans : ∃ response s' c,
    executeComparison asciiConfig 1 bestLoansRequest .inserted ⟨100, 101, 0⟩
      (bankYear loansTables) = .ok (response, s') ∧
    compute asciiConfig (bankYear loansTables).db 1 bestLoansRequest .inserted = .ok c ∧
    (DescribesCells response.resultDataset.measures response.resultDataset.evidenceReferences
        response.resultDataset.calculationReferences c.rows ↔
      NothingCut asciiConfig (bankYear loansTables).db 1 bestLoansRequest ∧
        ¬ MixesOrigins asciiConfig (bankYear loansTables).db 1 bestLoansRequest) := by
  obtain ⟨response, s', -, h, -⟩ := bestLoans_answered
  obtain ⟨c, hc, -, hiff⟩ := describesCells_iff keyedRows_loans h
  exact ⟨response, s', c, h, hc, hiff⟩

/-- **Evidence of no cell**: the dataset refers to the evidence of a row that it does not have. -/
theorem not_describesCells_bestLoans : ∃ response s' c,
    executeComparison asciiConfig 1 bestLoansRequest .inserted ⟨100, 101, 0⟩
      (bankYear loansTables) = .ok (response, s') ∧
    compute asciiConfig (bankYear loansTables).db 1 bestLoansRequest .inserted = .ok c ∧
    ¬ DescribesCells response.resultDataset.measures response.resultDataset.evidenceReferences
      response.resultDataset.calculationReferences c.rows := by
  obtain ⟨response, s', c, h, hc, hmem, hnone⟩ := bestLoans_answered
  refine ⟨response, s', c, h, hc, fun hdescribes => ?_⟩
  obtain ⟨row, hrow, entry, hentry, hid⟩ := (hdescribes.evidence 32).mp hmem
  exact hnone row hrow entry hentry hid

end ComparisonService

end FinanceIntelligence
