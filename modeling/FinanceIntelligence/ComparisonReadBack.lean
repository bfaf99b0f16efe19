import FinanceIntelligence.ComparisonReferences
import FinanceIntelligence.SnapshotReading

/-!
# Reading a comparison back

A comparison is stored with all its rows and with the charts of the page that was shown. When a
page is read back, the rows of the table are made of the cells of the dataset, which the schema of
the table refuses.

* `getPersistedComparison_eq` — **what reading gives**: an error if the page has a row.
* `readsBack_iff` — **every page is read back** if there is no figure at all.
-/

namespace FinanceIntelligence

namespace ComparisonService

/-! ## What is asked for -/

/-- The request of another page. -/
def onPage (payload : ComparisonRequestDTO Uuid) (page : BoundedInt 1 none)
    (pageSize : BoundedInt 1 (some 100)) : ComparisonRequestDTO Uuid :=
  { payload with page, page_size := pageSize }

/-- The values and the texts of a row of the dataset. -/
def rowTexts (row : DatasetRow) : String × List (String × String × String) :=
  (row.rowId, row.cells.map fun entry => (entry.1, entry.2.canonicalValue, entry.2.displayValue))

/-- The values and the texts of a row of the table. -/
def tableRowTexts (row : TableRow) : String × List (String × String × String) :=
  (row.rowId, row.cells.map fun entry => (entry.1, entry.2.rawValue, entry.2.displayText))

/-- The points of the charts. -/
def chartPoints (charts : List ChartSpec) : List (List (List ChartSeriesItem)) :=
  charts.map fun chart => chart.series.map (·.dataPoints)

/-- **What is read is what would be shown.** -/
structure ReadsAs (read shown : ComparisonResponse) : Prop where
  dataset : read.resultDataset.resultDatasetId = shown.resultDataset.resultDatasetId
  measures : read.resultDataset.measures = shown.resultDataset.measures
  warnings : read.resultDataset.warnings = shown.resultDataset.warnings
  /-- its summary -/
  quality : read.resultDataset.dataQualitySummary = shown.resultDataset.dataQualitySummary
  /-- the rows of the page -/
  rows : read.resultDataset.rows = shown.resultDataset.rows
  /-- the table shows these rows -/
  table : read.tableSpec.rows.map tableRowTexts = shown.resultDataset.rows.map rowTexts
  /-- the charts show these rows -/
  charts : chartPoints read.chartSpecs = chartPoints shown.chartSpecs
  /-- the figures of the pagination -/
  pagination : read.resultDataset.pagination = shown.resultDataset.pagination ∧
    read.tableSpec.pagination = shown.tableSpec.pagination

section Reading

variable (rules : LaxRules PyFloat Uuid) (cfg : ComparisonConfig) (d : ComparisonDb)
  (organizationId : Uuid) (payload : ComparisonRequestDTO Uuid)

/-- A page of a stored comparison is read as a comparison of that page would show it. -/
def ReadsBack (order : RowOrder) (stamp : RunStamp) (s s' : ComparisonStore) (comparisonId : Uuid)
    (page : BoundedInt 1 none) (pageSize : BoundedInt 1 (some 100)) : Prop :=
  ∃ shown t read,
    executeComparison cfg organizationId (onPage payload page pageSize) order stamp s =
      .ok (shown, t) ∧
    getPersistedComparison rules organizationId s' comparisonId page pageSize = .ok read ∧
    ReadsAs read shown

/-- There is a figure for some target at some place. -/
def HasFigure : Prop :=
  ∃ inst ∈ payload.institution_ids.val, ∃ period ∈ payload.reporting_period_ids.val,
    ∃ t, RequestTarget payload t ∧ FigureAt cfg d organizationId payload inst period t

variable {rules cfg d organizationId payload} {order : RowOrder} {c : Comparison}
  {defs : List SemanticMeasureDefinition} {found : MatchedRows} {scaleDiv : ℚ}
  {sorted : List DatasetRow} {stamp : RunStamp} {s s' : ComparisonStore}
  {response : ComparisonResponse}

/-! ## Rows -/

/-- Some row is kept if there is one. -/
theorem topN_eq_nil_iff {rows : List DatasetRow} : topN payload rows = [] ↔ rows = [] := by
  constructor
  · intro h
    by_contra hne
    obtain ⟨row, rest, rfl⟩ := List.exists_cons_of_ne_nil hne
    rw [topN] at h
    split at h
    · cases h
    · rename_i n _
      have hn : 0 < n.val.toNat := by
        have := n.property.1
        omega
      split at h
      · exact hn.ne' ((List.take_eq_nil_iff.mp h).resolve_right hne)
      · rw [takePerGroup, if_pos hn] at h
        cases h
  · rintro rfl
    exact List.sublist_nil.mp (topN_sublist payload [])

/-- A row has a cell. -/
theorem ComputedFrom.cells_ne_nil
    (hc : ComputedFrom cfg d organizationId payload order c defs found scaleDiv sorted)
    {row : DatasetRow} (hrow : row ∈ c.rows) : row.cells ≠ [] := by
  have hmem := hc.mem_of_mem_rows hrow
  rw [(assemble_eq_ok hc.assembly).2] at hmem
  obtain ⟨pair, -, hpair⟩ := List.mem_filterMap.mp hmem
  obtain ⟨hne, rfl⟩ := rowOf_eq_some_iff.mp hpair
  exact hne

/-- **There is a row** if there is a figure. -/
theorem ComputedFrom.rows_ne_nil_iff
    (hc : ComputedFrom cfg d organizationId payload order c defs found scaleDiv sorted) :
    c.rows ≠ [] ↔ HasFigure cfg d organizationId payload := by
  have hsorted : sorted = [] ↔ c.assembly.rows = [] := by
    rw [← List.length_eq_zero_iff, (perm_of_sortRows hc.order).length_eq, List.length_eq_zero_iff]
  have hplaces : c.assembly.rows = [] ↔ figuredPlaces cfg d organizationId payload = [] := by
    rw [← List.length_eq_zero_iff, ← List.length_map DatasetRow.place, hc.map_place.length_eq,
      List.length_eq_zero_iff]
  rw [hc.rows, Ne, topN_eq_nil_iff, hsorted, hplaces, figuredPlaces, List.filter_eq_nil_iff]
  simp only [decide_eq_true_eq, not_forall, not_not, HasFigure, places]
  constructor
  · rintro ⟨p, hp, h⟩
    obtain ⟨hinst, hperiod⟩ := List.mem_product.mp hp
    exact ⟨p.1, hinst, p.2, hperiod, h⟩
  · rintro ⟨inst, hinst, period, hperiod, h⟩
    exact ⟨(inst, period), List.mem_product.mpr ⟨hinst, hperiod⟩, h⟩

/-! ## Reading -/

/-- The dataset that was stored is the one that is found. -/
theorem findDataset_of_executeComparison
    (h : executeComparison cfg organizationId payload order stamp s = .ok (response, s'))
    (hc : compute cfg s.db organizationId payload order = .ok c) :
    findDataset organizationId s' response.comparisonId =
      .ok (datasetRecord organizationId response c.rows) := by
  obtain ⟨c', hc', h⟩ := exceptBind_eq_ok.mp h
  obtain rfl := Except.ok.inj (hc.symm.trans hc')
  dsimp only at h
  split at h
  · cases h
  · rename_i hfresh
    obtain ⟨rfl, rfl⟩ := Prod.mk.inj (Except.ok.inj h)
    -- the run is new, so no other dataset belongs to it
    have hold : (s.datasets.filter fun x => x.comparisonRunId == stamp.runId &&
        x.organizationId == organizationId) = [] := by
      refine List.filter_eq_nil_iff.mpr fun x hx hkey => hfresh (.inl ?_)
      simp only [Bool.and_eq_true, beq_iff_eq] at hkey
      rw [← hkey.1]
      exact s.datasets_run x hx
    have hnew : (s.add (datasetRecord organizationId (respond payload stamp c.assembly c.quality
        c.rows) c.rows)).datasets.filter (fun x => x.comparisonRunId == stamp.runId &&
          x.organizationId == organizationId) =
        [datasetRecord organizationId (respond payload stamp c.assembly c.quality c.rows)
          c.rows] := by
      rw [ComparisonStore.add, List.filter_append, hold]
      simp [datasetRecord, respond]
    have hid : (respond payload stamp c.assembly c.quality c.rows).comparisonId = stamp.runId := rfl
    rw [findDataset, hid, hnew]

/-- The table is refused if it has a row, since its rows have cells. -/
theorem mapM_tableRow_eq_none {rows : List DatasetRow} (hcells : ∀ row ∈ rows, row.cells ≠ [])
    (hne : rows ≠ []) : (rows.map tableSpecRow).mapM (TableRow.modelValidate rules) = none := by
  obtain ⟨row, rest, rfl⟩ := List.exists_cons_of_ne_nil hne
  rw [List.map_cons, List.mapM_cons,
    TableRow.modelValidate_tableSpecRow (hcells row List.mem_cons_self)]
  rfl

/-- The response of a page without rows. -/
def emptyPage (response : ComparisonResponse) (totalRows page pageSize : ℕ) :
    ComparisonResponse :=
  let pagination := makePagination totalRows page pageSize
  { response with
    resultDataset :=
      { response.resultDataset with
        rows := [], evidenceReferences := ∅, calculationReferences := ∅, pagination }
    tableSpec := { response.tableSpec with rows := [], pagination } }

/-- **What reading gives**: an error if the page has a row. -/
theorem getPersistedComparison_eq (hrules : rules.ReadsUuids)
    (h : executeComparison cfg organizationId payload order stamp s = .ok (response, s'))
    (hc : compute cfg s.db organizationId payload order = .ok c) (page : BoundedInt 1 none)
    (pageSize : BoundedInt 1 (some 100)) :
    getPersistedComparison rules organizationId s' response.comparisonId page pageSize =
      if pageOf page.val.toNat pageSize.val.toNat c.rows = [] then
        .ok (emptyPage response c.rows.length page.val.toNat pageSize.val.toNat)
      else .error .validation := by
  obtain ⟨defs, found, scaleDiv, sorted, hfrom⟩ := compute_eq_ok hc
  obtain ⟨hsum, text, -, hquality⟩ := dataQuality_eq_ok hfrom.quality
  have hread := findDataset_of_executeComparison h hc
  obtain ⟨c', hc', rfl, rfl⟩ := executeComparison_eq_ok h
  obtain rfl := Except.ok.inj (hc.symm.trans hc')
  have hvalid : DataQualitySummary.modelValidate rules c.quality.dump = some c.quality := by
    refine DataQualitySummary.modelValidate_dump ?_
    rw [hquality, DataQualitySummary.sumCells]
    simp [hsum]
  have hquery := QuerySnapshot.modelValidate_dump hrules (querySnap payload)
  have hmeasures : (c.assembly.measures.map (·.dump)).mapM MeasureItem.modelValidate =
      some c.assembly.measures :=
    mapM_map_of_forall fun m _ => MeasureItem.modelValidate_dump m
  have hrows : (c.rows.map (·.dump)).mapM (DatasetRow.modelValidate rules) = some c.rows :=
    mapM_map_of_forall fun r _ => DatasetRow.modelValidate_dump hrules r
  have hcharts (l : List ChartSpec) :
      (l.map (·.dump)).mapM (ChartSpec.modelValidate rules) = some l :=
    mapM_map_of_forall fun chart _ => ChartSpec.modelValidate_dump hrules chart
  rw [getPersistedComparison, hread]
  simp only [bind, Except.bind, validated, datasetRecord, respond, hquery, hvalid, hmeasures, hrows,
    hcharts]
  rw [if_neg (by decide)]
  by_cases hnil : pageOf page.val.toNat pageSize.val.toNat c.rows = []
  · rw [if_pos hnil, hnil]
    rfl
  · have hcells : ∀ row ∈ pageOf page.val.toNat pageSize.val.toNat c.rows, row.cells ≠ [] :=
      fun row hrow => hfrom.cells_ne_nil
        (List.drop_subset _ _ (List.take_subset _ _ hrow))
    rw [if_neg hnil, mapM_tableRow_eq_none hcells hnil]

/-! ## Pages -/

/-- What a comparison computes does not depend on the page. -/
theorem compute_onPage (page : BoundedInt 1 none) (pageSize : BoundedInt 1 (some 100)) :
    compute cfg d organizationId (onPage payload page pageSize) order =
      compute cfg d organizationId payload order :=
  rfl

/-- Another page is shown of the same rows. -/
theorem executeComparison_onPage
    (h : executeComparison cfg organizationId payload order stamp s = .ok (response, s'))
    (hc : compute cfg s.db organizationId payload order = .ok c) (page : BoundedInt 1 none)
    (pageSize : BoundedInt 1 (some 100)) :
    ∃ t, executeComparison cfg organizationId (onPage payload page pageSize) order stamp s =
      .ok (respond (onPage payload page pageSize) stamp c.assembly c.quality c.rows, t) := by
  rw [executeComparison, hc] at h
  rw [executeComparison, compute_onPage, hc]
  dsimp only [bind, Except.bind] at h ⊢
  split at h
  · cases h
  · rename_i hfresh
    rw [if_neg hfresh]
    exact ⟨_, rfl⟩

/-- **A page is read back** if it has no row, and the charts that were shown have no other
points. -/
theorem readsBack_page_iff (hrules : rules.ReadsUuids)
    (h : executeComparison cfg organizationId payload order stamp s = .ok (response, s'))
    (hc : compute cfg s.db organizationId payload order = .ok c) (page : BoundedInt 1 none)
    (pageSize : BoundedInt 1 (some 100)) :
    ReadsBack rules cfg organizationId payload order stamp s s' response.comparisonId page
        pageSize ↔
      pageOf page.val.toNat pageSize.val.toNat c.rows = [] ∧
        chartPoints response.chartSpecs =
          chartPoints (chartSpecs payload stamp.datasetId c.assembly.measures []) := by
  obtain ⟨t, hshown⟩ := executeComparison_onPage h hc page pageSize
  have hread := getPersistedComparison_eq hrules h hc page pageSize
  obtain ⟨c', hc', hresponse, -⟩ := executeComparison_eq_ok h
  obtain rfl := Except.ok.inj (hc.symm.trans hc')
  constructor
  · rintro ⟨shown, t', read, hshown', hread', hreads⟩
    rw [hread] at hread'
    rw [hshown] at hshown'
    obtain ⟨rfl, rfl⟩ := Prod.mk.inj (Except.ok.inj hshown')
    split at hread'
    · rename_i hnil
      obtain rfl := Except.ok.inj hread'
      refine ⟨hnil, hreads.charts.trans ?_⟩
      simp only [respond, onPage, hnil]
      rfl
    · cases hread'
  · rintro ⟨hnil, hcharts⟩
    rw [if_pos hnil] at hread
    refine ⟨_, t, _, hshown, hread, ?_⟩
    rw [hresponse]
    rw [hresponse] at hcharts
    exact {
      dataset := rfl
      measures := rfl
      warnings := rfl
      quality := rfl
      rows := hnil.symm
      table := by
        simp only [respond, onPage, hnil]
        rfl
      charts := by
        refine hcharts.trans ?_
        simp only [respond, onPage, hnil]
        rfl
      pagination := ⟨rfl, rfl⟩ }

end Reading

/-- **Every page of a comparison is read back** exactly when there is no figure at all. -/
theorem readsBack_iff {rules : LaxRules PyFloat Uuid} {cfg : ComparisonConfig}
    {organizationId : Uuid} {payload : ComparisonRequestDTO Uuid} {order : RowOrder}
    {stamp : RunStamp} {s s' : ComparisonStore} {response : ComparisonResponse}
    (hrules : rules.ReadsUuids)
    (h : executeComparison cfg organizationId payload order stamp s = .ok (response, s')) :
    (∀ page pageSize, ReadsBack rules cfg organizationId payload order stamp s s'
        response.comparisonId page pageSize) ↔
      ¬ HasFigure cfg s.db organizationId payload := by
  obtain ⟨c, hc, hresponse, -⟩ := executeComparison_eq_ok h
  obtain ⟨defs, found, scaleDiv, sorted, hfrom⟩ := compute_eq_ok hc
  rw [← hfrom.rows_ne_nil_iff, not_not]
  constructor
  · intro hall
    have hfirst := (readsBack_page_iff hrules h hc ⟨1, by decide⟩ ⟨1, by decide⟩).mp (hall _ _)
    by_contra hne
    refine (pageOf_ne_nil_iff one_pos).mpr ?_ hfirst.1
    simpa using List.length_pos_iff.mpr hne
  · intro hnil page pageSize
    refine (readsBack_page_iff hrules h hc page pageSize).mpr ⟨by rw [hnil]; simp [pageOf], ?_⟩
    rw [hresponse, respond, hnil]
    simp [pageOf]

/-! ## The loans of a bank -/

/-- The loans of the better year have a row. -/
theorem hasFigure_bestLoans :
    HasFigure asciiConfig (bankYear loansTables).db 1 bestLoansRequest := by
  obtain ⟨response, s', c, h, hc, -⟩ := bestLoans_answered
  obtain ⟨defs, found, scaleDiv, sorted, hfrom⟩ := compute_eq_ok hc
  have hrows : (compute asciiConfig (bankYear loansTables).db 1 bestLoansRequest
      .inserted).toOption.map (fun c => c.rows.isEmpty) = some false := by decide +kernel
  rw [hc] at hrows
  refine hfrom.rows_ne_nil_iff.mp fun hnil => ?_
  rw [Except.toOption, Option.map_some, hnil] at hrows
  cases hrows

/-- The answer about the better year. -/
theorem readsBack_iff_bestLoans : ∃ response s',
    executeComparison asciiConfig 1 bestLoansRequest .inserted ⟨100, 101, 0⟩
      (bankYear loansTables) = .ok (response, s') ∧
    ((∀ page pageSize, ReadsBack hexRules asciiConfig 1 bestLoansRequest .inserted ⟨100, 101, 0⟩
        (bankYear loansTables) s' response.comparisonId page pageSize) ↔
      ¬ HasFigure asciiConfig (bankYear loansTables).db 1 bestLoansRequest) := by
  obtain ⟨response, s', -, h, -⟩ := bestLoans_answered
  exact ⟨response, s', h, readsBack_iff readsUuids_hexRules h⟩

/-- **A comparison that cannot be read back**: its table has a cell. -/
theorem not_readsBack_bestLoans : ∃ response s',
    executeComparison asciiConfig 1 bestLoansRequest .inserted ⟨100, 101, 0⟩
      (bankYear loansTables) = .ok (response, s') ∧
    ¬ ∀ page pageSize, ReadsBack hexRules asciiConfig 1 bestLoansRequest .inserted ⟨100, 101, 0⟩
      (bankYear loansTables) s' response.comparisonId page pageSize := by
  obtain ⟨response, s', c, h, hc, -⟩ := bestLoans_answered
  obtain ⟨defs, found, scaleDiv, sorted, hfrom⟩ := compute_eq_ok hc
  refine ⟨response, s', h, fun hall => ?_⟩
  have hfirst := ((readsBack_page_iff readsUuids_hexRules h hc _ _).mp
    (hall ⟨1, by decide⟩ ⟨20, by decide⟩)).1
  refine (pageOf_ne_nil_iff (by decide)).mpr ?_ hfirst
  simpa using List.length_pos_iff.mpr (hfrom.rows_ne_nil_iff.mpr hasFigure_bestLoans)

end ComparisonService

end FinanceIntelligence
