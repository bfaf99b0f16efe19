import FinanceIntelligence.ComparisonCells
import FinanceIntelligence.ComparisonSnapshots
import Mathlib.Data.List.Perm.Subperm
import Mathlib.Algebra.BigOperators.Group.List.Basic

/-!
# The data quality of a comparison

The counters of the summary add up, whatever the request and the contents are.

* `quality_exact` — **the summary is exact**.

The counters are filled by different loops, and the service raises if their sum is not the number
of cells. That it never does is an induction over the places of the dataset.
-/

namespace FinanceIntelligence

namespace ComparisonService

/-! ## Rows for ids -/

section Found

variable {ρ : Type} {idOf : ρ → Uuid} {found : List ρ} {ids : List Uuid}

/-- As many ids as rows with one of them: the ids are those of the rows. -/
theorem dedup_perm_of_length (hsub : ∀ r ∈ found, idOf r ∈ ids)
    (hlength : (found.map idOf).dedup.length = ids.length) :
    ((found.map idOf).dedup).Perm ids := by
  have hsubset : (found.map idOf).dedup ⊆ ids := fun id hid => by
    obtain ⟨r, hr, rfl⟩ := List.mem_map.mp (List.mem_dedup.mp hid)
    exact hsub r hr
  exact ((List.nodup_dedup _).subperm hsubset).perm_of_length_le hlength.ge

/-- Every id has its row. -/
theorem exists_of_dedup_perm (hperm : ((found.map idOf).dedup).Perm ids) :
    ∀ id ∈ ids, ∃ r ∈ found, idOf r = id := fun _ hid =>
  List.mem_map.mp (List.mem_dedup.mp (hperm.mem_iff.mpr hid))

/-- The rows of the ids, in their order. -/
theorem map_filterMap_find (h : ∀ id ∈ ids, ∃ r ∈ found, idOf r = id) :
    (ids.filterMap fun id => found.find? (idOf · == id)).map idOf = ids := by
  induction ids with
  | nil => rfl
  | cons id ids ih =>
    obtain ⟨hid, hrest⟩ := List.forall_mem_cons.mp h
    obtain ⟨r, hr, hrid⟩ := hid
    cases hfind : found.find? (idOf · == id) with
    | none =>
      have hne := List.find?_eq_none.mp hfind r hr
      simp [hrid] at hne
    | some x =>
      have hx := List.find?_some hfind
      simp only [List.filterMap_cons, hfind, List.map_cons, ih hrest, beq_iff_eq.mp hx]

end Found

section Resolved

variable {d : ComparisonDb} {organizationId : Uuid} {payload : ComparisonRequestDTO Uuid}
  {defs : List SemanticMeasureDefinition}

/-- **What a request that is resolved asks for** is there, each once. -/
theorem resolveRequest_eq_ok (h : resolveRequest d organizationId payload = .ok defs) :
    semanticDefs payload.semantic_measures.val = .ok defs ∧
      (((foundInstitutions d organizationId payload).map (·.id)).dedup).Perm
        payload.institution_ids.val ∧
      (((foundPeriods d organizationId payload).map (·.id)).dedup).Perm
        payload.reporting_period_ids.val := by
  rw [resolveRequest] at h
  split at h
  · cases h
  · obtain ⟨defs', hdefs, h⟩ := exceptBind_eq_ok.mp h
    split at h
    · cases h
    · split at h
      · cases h
      · rename_i hinst hperiod
        obtain rfl := Except.ok.inj h
        refine ⟨hdefs, dedup_perm_of_length ?_ (not_not.mp hinst),
          dedup_perm_of_length ?_ (not_not.mp hperiod)⟩
        · intro r hr
          have hboth := (List.mem_filter.mp hr).2
          simp only [Bool.and_eq_true, List.contains_iff_mem] at hboth
          exact hboth.1
        · intro r hr
          have hboth := (List.mem_filter.mp hr).2
          simp only [Bool.and_eq_true, List.contains_iff_mem] at hboth
          exact hboth.1

/-- The ids of the request differ. -/
theorem nodup_of_resolveRequest (h : resolveRequest d organizationId payload = .ok defs) :
    payload.institution_ids.val.Nodup ∧ payload.reporting_period_ids.val.Nodup := by
  obtain ⟨-, hinst, hperiod⟩ := resolveRequest_eq_ok h
  exact ⟨hinst.nodup_iff.mp (List.nodup_dedup _), hperiod.nodup_iff.mp (List.nodup_dedup _)⟩

/-- The institutions are those of the request, in another order. -/
theorem map_sortedInstitutions (h : resolveRequest d organizationId payload = .ok defs) :
    ((sortedInstitutions d organizationId payload).map (·.id)).Perm
      payload.institution_ids.val := by
  have hids := map_filterMap_find (exists_of_dedup_perm (resolveRequest_eq_ok h).2.1)
  exact ((perm_sortedBy _ _).map _).trans (.of_eq hids)

/-- The periods are those of the request, in another order. -/
theorem map_sortedPeriods (h : resolveRequest d organizationId payload = .ok defs) :
    ((sortedPeriods d organizationId payload).map (·.id)).Perm
      payload.reporting_period_ids.val := by
  have hids := map_filterMap_find (exists_of_dedup_perm (resolveRequest_eq_ok h).2.2)
  exact ((perm_sortedBy _ _).map _).trans (.of_eq hids)

end Resolved

/-! ## Counts -/

section Counts

variable {payload : ComparisonRequestDTO Uuid} {cellAt : CellSource} {targets : List TargetMeasure}
  {slots : List Slot} {a : Assembly}

theorem length_filled_add_unfilled (slots : List Slot) :
    (filled cellAt slots).length + (unfilled cellAt slots).length = slots.length := by
  induction slots with
  | nil => rfl
  | cons s slots ih =>
    cases hcell : s.cell cellAt with
    | some cell =>
      simp only [filled, unfilled, List.filterMap_cons, hcell, Option.map_some, List.length_cons,
        Option.isNone_some, Bool.false_eq_true, not_false_eq_true, List.filter_cons_of_neg] at ih ⊢
      omega
    | none =>
      simp only [filled, unfilled, List.filterMap_cons, hcell, Option.map_none, Option.isNone_none,
        List.filter_cons_of_pos, List.length_cons] at ih ⊢
      omega

theorem length_allSlots (insts : List ComparedInstitution) (periods : List ComparedPeriod) :
    (allSlots targets insts periods).length = insts.length * periods.length * targets.length := by
  simp [allSlots, pairsOf, slotsOf, List.length_flatMap]

/-- The cells of a row are those of its places. -/
theorem cellsOf_eq (pair : ComparedInstitution × ComparedPeriod) :
    cellsOf cellAt targets pair.1.id pair.2.id =
      (filled cellAt (slotsOf targets pair)).map fun x => (x.1.key, x.2) := by
  simp only [cellsOf, filled, slotsOf, List.filterMap_map, List.map_filterMap]
  refine List.filterMap_congr fun t _ => ?_
  simp [Slot.cell, Option.map_map, Function.comp_def]

/-- The cells of all rows are those of all places. -/
theorem sum_cells (pairs : List (ComparedInstitution × ComparedPeriod)) :
    ((pairs.filterMap (rowOf payload cellAt targets)).map (·.cells.length)).sum =
      (filled cellAt (pairs.flatMap (slotsOf targets))).length := by
  induction pairs with
  | nil => rfl
  | cons pair pairs ih =>
    have hlength : (cellsOf cellAt targets pair.1.id pair.2.id).length =
        (filled cellAt (slotsOf targets pair)).length := by
      rw [cellsOf_eq, List.length_map]
    have happend : filled cellAt ((pair :: pairs).flatMap (slotsOf targets)) =
        filled cellAt (slotsOf targets pair) ++
          filled cellAt (pairs.flatMap (slotsOf targets)) := by
      simp [filled]
    rw [happend, List.length_append, ← ih, ← hlength]
    by_cases hempty : (cellsOf cellAt targets pair.1.id pair.2.id).isEmpty = true
    · have hnone : rowOf payload cellAt targets pair = none := by simp [rowOf, hempty]
      rw [List.filterMap_cons_none hnone, List.isEmpty_iff.mp hempty, List.length_nil, Nat.zero_add]
    · have hsome : rowOf payload cellAt targets pair = some (datasetRow payload pair.1 pair.2
          (cellsOf cellAt targets pair.1.id pair.2.id)) := by simp [rowOf, hempty]
      rw [List.filterMap_cons_some hsome, List.map_cons, List.sum_cons]
      rfl

/-- The cells that were collected and those that are missing are all places. -/
theorem Collected.sum_eq (ha : Collected payload cellAt slots a) :
    a.populatedCells + a.missingSourceCells = slots.length := by
  rw [ha.populated, ha.missing, length_filled_add_unfilled]

/-- Every cell is reported or derived. -/
theorem Collected.origins (ha : Collected payload cellAt slots a) :
    a.populatedCells = a.srcReportedCount + a.sysDerivedCount := by
  rw [ha.populated, ha.reported, ha.derived,
    List.length_eq_countP_add_countP fun x : TargetMeasure × DatasetRowCell =>
      decide (x.2.valueOrigin = .sourceReported)]
  congr 1
  exact List.countP_congr fun x _ => by simp

end Counts

/-! ## Exceptions -/

/-- The exception of cells that do not add up is not raised. -/
def NeverViolates {α : Type} (x : Except ComparisonExc α) : Prop :=
  ∀ expected sum, x ≠ .error (.dataQualityInvariantViolated expected sum)

section NeverViolates

variable {α β σ : Type} {x : Except ComparisonExc α} {f : α → Except ComparisonExc β}

theorem neverViolates_ok (a : α) : NeverViolates (.ok a : Except ComparisonExc α) := nofun

theorem neverViolates_value (code : String) :
    NeverViolates (.error (.value code) : Except ComparisonExc α) := nofun

theorem NeverViolates.bind (hx : NeverViolates x) (hf : ∀ a, x = .ok a → NeverViolates (f a)) :
    NeverViolates (x >>= f) := by
  intro expected sum h
  rcases exceptBind_eq_error.mp h with h | ⟨a, ha, h⟩
  · exact hx expected sum h
  · exact hf a ha expected sum h

theorem NeverViolates.map {g : α → β} (hx : NeverViolates x) : NeverViolates (x.map g) := by
  cases x with
  | ok a => exact neverViolates_ok _
  | error e =>
    rintro expected sum ⟨⟩
    exact hx expected sum rfl

theorem NeverViolates.foldlM {step : σ → α → Except ComparisonExc σ}
    (hstep : ∀ s a, NeverViolates (step s a)) (l : List α) (s : σ) :
    NeverViolates (l.foldlM step s) := by
  induction l generalizing s with
  | nil => exact neverViolates_ok s
  | cons a l ih =>
    rw [List.foldlM_cons]
    exact (hstep s a).bind fun t _ => ih t

theorem NeverViolates.mapM {g : α → Except ComparisonExc β} (hg : ∀ a, NeverViolates (g a))
    (l : List α) : NeverViolates (l.mapM g) := by
  induction l with
  | nil => exact neverViolates_ok _
  | cons a l ih =>
    rw [List.mapM_cons]
    exact (hg a).bind fun b _ => ih.bind fun bs _ => neverViolates_ok _

theorem NeverViolates.keepRows {g : α → Except ComparisonExc (Option β)}
    (hg : ∀ a, NeverViolates (g a)) (l : List α) : NeverViolates (keepRows g l) := by
  induction l with
  | nil => exact neverViolates_ok _
  | cons a l ih => exact (hg a).bind fun b _ => ih.bind fun bs _ => neverViolates_ok _

end NeverViolates

section Parts

variable (cfg : ComparisonConfig) (d : ComparisonDb) (organizationId : Uuid)
  (payload : ComparisonRequestDTO Uuid)

theorem neverViolates_resolveRequest : NeverViolates (resolveRequest d organizationId payload) := by
  rw [resolveRequest]
  split
  · exact neverViolates_value _
  · refine NeverViolates.bind ?_ fun defs _ => ?_
    · refine NeverViolates.foldlM (fun defs sel => NeverViolates.bind ?_ fun defn _ => ?_) _ _
      · rw [SemanticMeasureRegistry.get]
        split
        · exact neverViolates_ok _
        · exact neverViolates_value _
      · exact neverViolates_ok _
    · split
      · exact neverViolates_value _
      · split
        · exact neverViolates_value _
        · exact neverViolates_ok _

theorem neverViolates_usableFact (f : FinancialFact) :
    NeverViolates (usableFact cfg d organizationId payload f) := by
  simp only [usableFact]
  split
  · exact neverViolates_value _
  · split
    · split
      · exact neverViolates_value _
      · exact neverViolates_ok _
    · split
      · exact neverViolates_ok _
      · split
        · exact neverViolates_value _
        · exact neverViolates_ok _

theorem neverViolates_usableCalculation (row : Calculation × CalculationAttempt) :
    NeverViolates (usableCalculation cfg d organizationId row) := by
  simp only [usableCalculation]
  repeat' split
  all_goals first | exact neverViolates_ok _ | exact nofun

theorem neverViolates_matchRows (order : RowOrder) (defs : List SemanticMeasureDefinition) :
    NeverViolates (matchRows cfg d organizationId payload order defs) :=
  (NeverViolates.keepRows (neverViolates_usableFact cfg d organizationId payload) _).bind
    fun _ _ => (NeverViolates.keepRows (neverViolates_usableCalculation cfg d organizationId)
      _).bind fun _ _ => neverViolates_ok _

theorem neverViolates_scaleDivisor (displayScale : String) :
    NeverViolates (scaleDivisor displayScale) := by
  rw [scaleDivisor]
  split
  · exact neverViolates_ok _
  · exact neverViolates_value _

theorem neverViolates_assemble (cellAt : CellSource) (targets : List TargetMeasure)
    (insts : List ComparedInstitution) (periods : List ComparedPeriod) :
    NeverViolates (assemble payload cellAt targets insts periods) := by
  refine NeverViolates.foldlM (fun a pair => ?_) _ _
  refine (NeverViolates.foldlM (fun x t => ?_) _ _).bind fun x _ => neverViolates_ok _
  rw [addTarget]
  split
  · exact neverViolates_ok _
  · refine NeverViolates.map ?_
    rw [Assembly.addMissing]
    split
    · exact neverViolates_value _
    · exact neverViolates_ok _

theorem neverViolates_sortRows (U : CharClass) (measures : List MeasureItem)
    (rows : List DatasetRow) : NeverViolates (sortRows payload U measures rows) := by
  refine NeverViolates.bind ?_ fun _ _ => neverViolates_ok _
  refine NeverViolates.mapM (fun r => NeverViolates.map (NeverViolates.map ?_)) _
  rw [sortValue]
  split
  · refine NeverViolates.bind ?_ fun _ _ => neverViolates_ok _
    rw [safeDecimal]
    split
    · exact neverViolates_ok _
    · exact neverViolates_value _
  · exact neverViolates_ok _

/-- A summary whose cells add up. -/
theorem neverViolates_dataQuality {expected : ℕ} {a : Assembly}
    (h : expected = a.populatedCells + a.missingSourceCells) :
    NeverViolates (dataQuality expected a) := by
  have hsum : expected = a.populatedCells + a.missingSourceCells + 0 + 0 := h
  rw [dataQuality, if_neg (not_not.mpr hsum)]
  refine NeverViolates.bind ?_ fun _ _ => neverViolates_ok _
  simp only [completeness]
  split
  · split
    · exact neverViolates_ok _
    · exact nofun
  · exact neverViolates_ok _

end Parts

/-! ## The summary -/

section Summary

variable {cfg : ComparisonConfig} {d : ComparisonDb} {organizationId : Uuid}
  {payload : ComparisonRequestDTO Uuid} {order : RowOrder} {c : Comparison}

/-- How a comparison comes about. -/
structure ComputedFrom (cfg : ComparisonConfig) (d : ComparisonDb) (organizationId : Uuid)
    (payload : ComparisonRequestDTO Uuid) (order : RowOrder) (c : Comparison)
    (defs : List SemanticMeasureDefinition) (found : MatchedRows) (scaleDiv : ℚ)
    (sorted : List DatasetRow) : Prop where
  /-- the measures -/
  resolved : resolveRequest d organizationId payload = .ok defs
  /-- the rows that are found -/
  matched : matchRows cfg d organizationId payload order defs = .ok found
  scale : scaleDivisor payload.display_scale.val = .ok scaleDiv
  /-- the measures by key -/
  targets : c.targets = targetMeasures (policyOf payload) defs
  /-- where the cells come from -/
  cellAt : c.cellAt = found.cellAt payload scaleDiv
  /-- the loops -/
  assembly : assemble payload c.cellAt c.targets (sortedInstitutions d organizationId payload)
    (sortedPeriods d organizationId payload) = .ok c.assembly
  /-- the order of the rows -/
  order : sortRows payload cfg.digests.chars c.assembly.measures c.assembly.rows = .ok sorted
  /-- the summary -/
  quality : dataQuality (expectedCells payload c.targets) c.assembly = .ok c.quality
  /-- the rows that are kept -/
  rows : c.rows = topN payload sorted

theorem compute_eq_ok (h : compute cfg d organizationId payload order = .ok c) :
    ∃ defs found scaleDiv sorted,
      ComputedFrom cfg d organizationId payload order c defs found scaleDiv sorted := by
  obtain ⟨defs, hdefs, h⟩ := exceptBind_eq_ok.mp h
  obtain ⟨found, hfound, h⟩ := exceptBind_eq_ok.mp h
  obtain ⟨scaleDiv, hscale, h⟩ := exceptBind_eq_ok.mp h
  obtain ⟨assembly, hassembly, h⟩ := exceptBind_eq_ok.mp h
  obtain ⟨sorted, hsorted, h⟩ := exceptBind_eq_ok.mp h
  obtain ⟨quality, hquality, h⟩ := exceptBind_eq_ok.mp h
  obtain rfl := Except.ok.inj h
  exact ⟨defs, found, scaleDiv, sorted, hdefs, hfound, hscale, rfl, rfl, hassembly, hsorted,
    hquality, rfl⟩

/-- What the summary says of the counts. -/
theorem dataQuality_eq_ok {expected : ℕ} {a : Assembly} {q : DataQualitySummary}
    (h : dataQuality expected a = .ok q) :
    expected = a.populatedCells + a.missingSourceCells ∧
      ∃ text, completeness a.populatedCells expected = .ok text ∧
        q = { expectedCells := expected
              populatedCells := a.populatedCells
              missingSourceCells := a.missingSourceCells
              excludedIneligibleCells := 0
              excludedMismatchCells := 0
              warningCells := a.warningCells
              sourceReportedCount := a.srcReportedCount
              systemDerivedCount := a.sysDerivedCount
              reconciliationWarningCount := a.reconciliationWarningCount
              completenessPercentage := text } := by
  rw [dataQuality] at h
  split at h
  · cases h
  · rename_i hsum
    obtain ⟨text, htext, h⟩ := exceptBind_eq_ok.mp h
    exact ⟨not_not.mp hsum, text, htext, (Except.ok.inj h).symm⟩

/-- The places are as many as cells are expected. -/
theorem length_allSlots_eq {defs : List SemanticMeasureDefinition}
    (h : resolveRequest d organizationId payload = .ok defs) (targets : List TargetMeasure) :
    (allSlots targets (sortedInstitutions d organizationId payload)
      (sortedPeriods d organizationId payload)).length = expectedCells payload targets := by
  have hinst := (map_sortedInstitutions h).length_eq
  have hperiod := (map_sortedPeriods h).length_eq
  rw [List.length_map] at hinst hperiod
  rw [length_allSlots, hinst, hperiod, expectedCells]

/-- A cell carries the warning of its status. -/
theorem warningFlag_cellAt {found : MatchedRows} {scaleDiv : ℚ} {inst period : Uuid}
    {t : TargetMeasure} {cell : DatasetRowCell}
    (h : found.cellAt payload scaleDiv inst period t = some cell) :
    cell.warningFlag = cell.reconciliationStatus.any (·.val == "OUTSIDE_TOLERANCE") := by
  obtain ⟨v, -, rfl⟩ := Option.map_eq_some_iff.mp h
  rfl

theorem mem_filled {cellAt : CellSource} {slots : List Slot} {x : TargetMeasure × DatasetRowCell} :
    x ∈ filled cellAt slots ↔ ∃ s ∈ slots, s.target = x.1 ∧ s.cell cellAt = some x.2 := by
  simp only [filled, List.mem_filterMap, Option.map_eq_some_iff]
  constructor
  · rintro ⟨s, hs, cell, hcell, rfl⟩
    exact ⟨s, hs, rfl, hcell⟩
  · rintro ⟨s, hs, htarget, hcell⟩
    exact ⟨s, hs, x.2, hcell, by rw [htarget]⟩

/-- **What the summary of a dataset counts.** -/
structure QualityExact (payload : ComparisonRequestDTO Uuid) (c : Comparison)
    (dataset : ResultDataset) : Prop where
  /-- every cell is reported or derived -/
  origins : dataset.dataQualitySummary.populatedCells =
    dataset.dataQualitySummary.sourceReportedCount + dataset.dataQualitySummary.systemDerivedCount
  /-- the cells are those of the rows that were assembled -/
  cells : dataset.dataQualitySummary.populatedCells =
    (c.assembly.rows.map (·.cells.length)).sum
  /-- the rest is missing -/
  missing : dataset.dataQualitySummary.missingSourceCells =
    dataset.dataQualitySummary.expectedCells - dataset.dataQualitySummary.populatedCells
  /-- there is a warning about each missing cell, and no other -/
  warnings : payload.common_period_policy.val = "ALLOW_PARTIAL_WITH_WARNINGS" →
    dataset.dataQualitySummary.missingSourceCells = dataset.warnings.length ∧
      ∀ w ∈ dataset.warnings, w.lookup "code" = some (.str "MISSING_DATA_POINT")
  /-- nothing is missing under the strict policy -/
  strict : payload.common_period_policy.val = "STRICT_COMMON_PERIOD" →
    dataset.dataQualitySummary.missingSourceCells = 0
  /-- the cells with a warning -/
  warned : dataset.dataQualitySummary.warningCells =
    dataset.dataQualitySummary.reconciliationWarningCount
  /-- a row is left out if it has no cell -/
  omitted : ∀ inst ∈ payload.institution_ids.val, ∀ period ∈ payload.reporting_period_ids.val,
    (∀ row ∈ c.assembly.rows, ¬ (row.institutionId = inst ∧ row.reportingPeriodId = period)) →
      ∀ t ∈ c.targets, c.cellAt inst period t = none

/-- A pair with a cell has a row. -/
theorem rowOf_eq_some {cellAt : CellSource} {targets : List TargetMeasure}
    {pair : ComparedInstitution × ComparedPeriod} {t : TargetMeasure} {cell : DatasetRowCell}
    (ht : t ∈ targets) (hcell : cellAt pair.1.id pair.2.id t = some cell) :
    rowOf payload cellAt targets pair = some (datasetRow payload pair.1 pair.2
        (cellsOf cellAt targets pair.1.id pair.2.id)) ∧
      (t.key, cell) ∈ cellsOf cellAt targets pair.1.id pair.2.id := by
  have hmem : (t.key, cell) ∈ cellsOf cellAt targets pair.1.id pair.2.id :=
    List.mem_filterMap.mpr ⟨t, ht, by rw [hcell]; rfl⟩
  have hne : (cellsOf cellAt targets pair.1.id pair.2.id).isEmpty = false := by
    rw [List.isEmpty_eq_false_iff]
    exact List.ne_nil_of_mem hmem
  exact ⟨by simp [rowOf, hne], hmem⟩

/-- A row has a cell of a place. -/
theorem rowOf_eq_some_iff {cellAt : CellSource} {targets : List TargetMeasure}
    {pair : ComparedInstitution × ComparedPeriod} {row : DatasetRow} :
    rowOf payload cellAt targets pair = some row ↔
      cellsOf cellAt targets pair.1.id pair.2.id ≠ [] ∧
        row = datasetRow payload pair.1 pair.2 (cellsOf cellAt targets pair.1.id pair.2.id) := by
  rw [rowOf]
  cases cellsOf cellAt targets pair.1.id pair.2.id <;> simp [eq_comm]

/-- A pair without a row has no cell. -/
theorem cellAt_of_omitted {cellAt : CellSource} {targets : List TargetMeasure}
    {pairs : List (ComparedInstitution × ComparedPeriod)}
    {pair : ComparedInstitution × ComparedPeriod} (hpair : pair ∈ pairs)
    (h : ∀ row ∈ pairs.filterMap (rowOf payload cellAt targets),
      ¬ (row.institutionId = pair.1.id ∧ row.reportingPeriodId = pair.2.id)) :
    ∀ t ∈ targets, cellAt pair.1.id pair.2.id t = none := by
  intro t ht
  by_contra hcell
  obtain ⟨cell, hcell⟩ := Option.ne_none_iff_exists'.mp hcell
  exact h _ (List.mem_filterMap.mpr ⟨pair, hpair, (rowOf_eq_some ht hcell).1⟩) ⟨rfl, rfl⟩

/-- The pairs of the loops, for ids of the request. -/
theorem exists_pair {defs : List SemanticMeasureDefinition}
    (h : resolveRequest d organizationId payload = .ok defs) {inst period : Uuid}
    (hinst : inst ∈ payload.institution_ids.val)
    (hperiod : period ∈ payload.reporting_period_ids.val) :
    ∃ pair ∈ pairsOf (sortedInstitutions d organizationId payload)
      (sortedPeriods d organizationId payload), pair.1.id = inst ∧ pair.2.id = period := by
  obtain ⟨i, hi, rfl⟩ := List.mem_map.mp ((map_sortedInstitutions h).mem_iff.mpr hinst)
  obtain ⟨p, hp, rfl⟩ := List.mem_map.mp ((map_sortedPeriods h).mem_iff.mpr hperiod)
  exact ⟨(i, p), List.mem_flatMap.mpr ⟨i, hi, List.mem_map.mpr ⟨p, hp, rfl⟩⟩, rfl, rfl⟩

/-- The summary of a response that shows a comparison. -/
theorem qualityExact_respond (stamp : RunStamp)
    (h : compute cfg d organizationId payload order = .ok c) :
    QualityExact payload c
      (respond payload stamp c.assembly c.quality c.rows).resultDataset := by
  obtain ⟨defs, found, scaleDiv, sorted, hc⟩ := compute_eq_ok h
  obtain ⟨hcollected, hrows⟩ := assemble_eq_ok hc.assembly
  obtain ⟨hsum, text, -, hquality⟩ := dataQuality_eq_ok hc.quality
  have hsum' : ((expectedCells payload c.targets : ℕ) : ℤ) =
      c.assembly.populatedCells + c.assembly.missingSourceCells := by exact_mod_cast hsum
  exact {
    origins := by
      simp only [respond, hquality]
      exact_mod_cast hcollected.origins
    cells := by
      simp only [respond, hquality, hrows, sum_cells]
      exact_mod_cast hcollected.populated
    missing := by
      simp only [respond, hquality]
      omega
    warnings := fun hpolicy => by
      have hwarnings := hcollected.warnings
      rw [if_pos hpolicy] at hwarnings
      constructor
      · simp only [respond, hquality, List.length_map, hwarnings, hcollected.missing]
      · intro w hw
        simp only [respond, hwarnings] at hw
        obtain ⟨x, hx, rfl⟩ := List.mem_map.mp hw
        obtain ⟨s, -, rfl⟩ := List.mem_map.mp hx
        rfl
    strict := fun hpolicy => by
      simp only [respond, hquality, hcollected.missing, hcollected.strict hpolicy]
      rfl
    warned := by
      simp only [respond, hquality, hcollected.warned, hcollected.outside]
      congr 1
      refine List.countP_congr fun x hx => ?_
      obtain ⟨s, -, -, hcell⟩ := mem_filled.mp hx
      rw [Slot.cell, hc.cellAt] at hcell
      rw [warningFlag_cellAt hcell]
    omitted := fun inst hinst period hperiod hnone => by
      obtain ⟨pair, hpair, rfl, rfl⟩ := exists_pair hc.resolved hinst hperiod
      rw [hrows] at hnone
      exact cellAt_of_omitted hpair hnone }

/-- The cells that are computed add up. -/
theorem neverViolates_compute (cfg : ComparisonConfig) (d : ComparisonDb) (organizationId : Uuid)
    (payload : ComparisonRequestDTO Uuid) (order : RowOrder) :
    NeverViolates (compute cfg d organizationId payload order) := by
  refine (neverViolates_resolveRequest d organizationId payload).bind fun defs hdefs => ?_
  refine (neverViolates_matchRows cfg d organizationId payload order defs).bind fun found _ => ?_
  refine (neverViolates_scaleDivisor _).bind fun scaleDiv _ => ?_
  refine (neverViolates_assemble payload _ _ _ _).bind fun a ha => ?_
  refine (neverViolates_sortRows payload _ _ _).bind fun sorted _ => ?_
  refine NeverViolates.bind (neverViolates_dataQuality ?_) fun _ _ => neverViolates_ok _
  rw [← length_allSlots_eq hdefs]
  exact (assemble_eq_ok ha).1.sum_eq.symm

/-- What a comparison answers. -/
theorem executeComparison_eq_ok {stamp : RunStamp} {s s' : ComparisonStore}
    {response : ComparisonResponse}
    (h : executeComparison cfg organizationId payload order stamp s = .ok (response, s')) :
    ∃ c, compute cfg s.db organizationId payload order = .ok c ∧
      response = respond payload stamp c.assembly c.quality c.rows ∧
      s' = s.add (datasetRecord organizationId response c.rows) := by
  obtain ⟨c, hc, h⟩ := exceptBind_eq_ok.mp h
  dsimp only at h
  split at h
  · cases h
  · obtain ⟨rfl, rfl⟩ := Prod.mk.inj (Except.ok.inj h)
    exact ⟨c, hc, rfl, rfl⟩

end Summary

/-- **The summary is exact**, and a comparison never raises that its cells do not add up. -/
theorem quality_exact (cfg : ComparisonConfig) (organizationId : Uuid)
    (payload : ComparisonRequestDTO Uuid) (order : RowOrder) (stamp : RunStamp)
    (s : ComparisonStore) :
    (∀ expected sum, executeComparison cfg organizationId payload order stamp s ≠
      .error (.dataQualityInvariantViolated expected sum)) ∧
    ∀ response s', executeComparison cfg organizationId payload order stamp s =
        .ok (response, s') →
      ∃ c, compute cfg s.db organizationId payload order = .ok c ∧
        QualityExact payload c response.resultDataset := by
  refine ⟨?_, fun response s' h => ?_⟩
  · refine NeverViolates.bind (neverViolates_compute cfg s.db organizationId payload order)
      fun c _ => ?_
    dsimp only
    split
    · exact nofun
    · exact neverViolates_ok _
  · obtain ⟨c, hc, rfl, -⟩ := executeComparison_eq_ok h
    exact ⟨c, hc, qualityExact_respond stamp hc⟩

end ComparisonService

end FinanceIntelligence
