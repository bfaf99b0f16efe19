import FinanceIntelligence.ComparisonService
import FinanceIntelligence.Raising

/-!
# The cells of a comparison

What the loops over institutions, periods and measures come to: every count, list and row is a
function of the places that were visited, each with its cell or without one.

* `assemble_eq_ok` — **the result of the loops**.
-/

namespace FinanceIntelligence

namespace ComparisonService

/-- A place for a cell. -/
structure Slot where
  institution : ComparedInstitution
  period : ComparedPeriod
  /-- the measure -/
  target : TargetMeasure

variable {payload : ComparisonRequestDTO Uuid} {cellAt : CellSource} {targets : List TargetMeasure}

/-- The cell of a place. -/
def Slot.cell (cellAt : CellSource) (s : Slot) : Option DatasetRowCell :=
  cellAt s.institution.id s.period.id s.target

/-- The cells that there are, with their measures. -/
def filled (cellAt : CellSource) (slots : List Slot) : List (TargetMeasure × DatasetRowCell) :=
  slots.filterMap fun s => (s.cell cellAt).map (Prod.mk s.target)

/-- The places without a cell. -/
def unfilled (cellAt : CellSource) (slots : List Slot) : List Slot :=
  slots.filter fun s => (s.cell cellAt).isNone

/-- A measure is listed when its first cell is met. -/
def listMeasure (payload : ComparisonRequestDTO Uuid) (measures : List MeasureItem)
    (x : TargetMeasure × DatasetRowCell) : List MeasureItem :=
  if measures.any (·.measureCode == x.1.key) then measures
  else measures ++ [measureItem payload x.1 x.2]

/-- What the loops have collected of the places that they have visited. -/
structure Collected (payload : ComparisonRequestDTO Uuid) (cellAt : CellSource)
    (slots : List Slot) (a : Assembly) : Prop where
  measures : a.measures = (filled cellAt slots).foldl (listMeasure payload) []
  evidence : a.evidenceRefIds = (filled cellAt slots).flatMap (·.2.evidenceId.toList)
  calculations : a.calcRefIds = (filled cellAt slots).flatMap (·.2.calculationId.toList)
  warnings : a.warnings =
    if payload.common_period_policy.val = "ALLOW_PARTIAL_WITH_WARNINGS" then
      (unfilled cellAt slots).map fun s => missingDataPoint s.institution s.period s.target
    else []
  /-- the cells -/
  populated : a.populatedCells = (filled cellAt slots).length
  /-- the places without a cell -/
  missing : a.missingSourceCells = (unfilled cellAt slots).length
  /-- the cells with a warning -/
  warned : a.warningCells = (filled cellAt slots).countP (·.2.warningFlag)
  /-- the reported figures -/
  reported : a.srcReportedCount =
    (filled cellAt slots).countP (·.2.valueOrigin = .sourceReported)
  /-- the derived figures -/
  derived : a.sysDerivedCount = (filled cellAt slots).countP (·.2.valueOrigin ≠ .sourceReported)
  /-- the figures that differ from what was reported -/
  outside : a.reconciliationWarningCount =
    (filled cellAt slots).countP (·.2.reconciliationStatus.any (·.val == "OUTSIDE_TOLERANCE"))
  /-- nothing may be missing under the strict policy -/
  strict : payload.common_period_policy.val = "STRICT_COMMON_PERIOD" → unfilled cellAt slots = []

/-- Nothing is collected of no places. -/
theorem Collected.empty : Collected payload cellAt [] {} where
  measures := rfl
  evidence := rfl
  calculations := rfl
  warnings := by simp [unfilled]
  populated := rfl
  missing := rfl
  warned := rfl
  reported := rfl
  derived := rfl
  outside := rfl
  strict _ := rfl

section Step

variable {slots : List Slot} {a a' : Assembly} {s : Slot} {cell : DatasetRowCell}

theorem filled_append_some (h : s.cell cellAt = some cell) :
    filled cellAt (slots ++ [s]) = filled cellAt slots ++ [(s.target, cell)] := by
  simp [filled, h]

theorem filled_append_none (h : s.cell cellAt = none) :
    filled cellAt (slots ++ [s]) = filled cellAt slots := by
  simp [filled, h]

theorem unfilled_append_some (h : s.cell cellAt = some cell) :
    unfilled cellAt (slots ++ [s]) = unfilled cellAt slots := by
  simp [unfilled, h]

theorem unfilled_append_none (h : s.cell cellAt = none) :
    unfilled cellAt (slots ++ [s]) = unfilled cellAt slots ++ [s] := by
  simp [unfilled, h]

/-- A place with a cell. -/
theorem Collected.addCell (ha : Collected payload cellAt slots a) (h : s.cell cellAt = some cell) :
    Collected payload cellAt (slots ++ [s]) (a.addCell payload s.target cell) where
  measures := by
    rw [filled_append_some h, List.foldl_append, List.foldl_cons, List.foldl_nil, ← ha.measures]
    rfl
  evidence := by simp [Assembly.addCell, filled_append_some h, ha.evidence]
  calculations := by simp [Assembly.addCell, filled_append_some h, ha.calculations]
  warnings := by rw [unfilled_append_some h, ← ha.warnings]; rfl
  populated := by simp [Assembly.addCell, filled_append_some h, ha.populated]
  missing := by rw [unfilled_append_some h, ← ha.missing]; rfl
  warned := by simp [Assembly.addCell, filled_append_some h, ha.warned, List.countP_singleton]
  reported := by simp [Assembly.addCell, filled_append_some h, ha.reported, List.countP_singleton]
  derived := by
    simp [Assembly.addCell, filled_append_some h, ha.derived, List.countP_singleton]
  outside := by simp [Assembly.addCell, filled_append_some h, ha.outside, List.countP_singleton]
  strict hs := by rw [unfilled_append_some h]; exact ha.strict hs

/-- A place without one. -/
theorem Collected.addMissing (ha : Collected payload cellAt slots a) (h : s.cell cellAt = none)
    (ha' : a.addMissing payload s.institution s.period s.target = .ok a') :
    Collected payload cellAt (slots ++ [s]) a' := by
  rw [Assembly.addMissing] at ha'
  split at ha'
  · cases ha'
  · rename_i hpolicy
    obtain rfl := Except.ok.inj ha'
    exact {
      measures := by rw [filled_append_none h]; exact ha.measures
      evidence := by rw [filled_append_none h]; exact ha.evidence
      calculations := by rw [filled_append_none h]; exact ha.calculations
      warnings := by
        rw [unfilled_append_none h, ha.warnings]
        split <;> simp
      populated := by rw [filled_append_none h]; exact ha.populated
      missing := by simp [unfilled_append_none h, ha.missing]
      warned := by rw [filled_append_none h]; exact ha.warned
      reported := by rw [filled_append_none h]; exact ha.reported
      derived := by rw [filled_append_none h]; exact ha.derived
      outside := by rw [filled_append_none h]; exact ha.outside
      strict := fun hstrict => absurd hstrict hpolicy }

end Step

/-! ## Rows -/

section Rows

variable {inst : ComparedInstitution} {period : ComparedPeriod}
  {pair : ComparedInstitution × ComparedPeriod} {a a' : Assembly} {cells cells' : RowCells}
  {slots : List Slot}

/-- The places of a row. -/
def slotsOf (targets : List TargetMeasure) (pair : ComparedInstitution × ComparedPeriod) :
    List Slot :=
  targets.map fun t => ⟨pair.1, pair.2, t⟩

/-- The cells of a row. -/
def cellsOf (cellAt : CellSource) (targets : List TargetMeasure) (inst period : Uuid) : RowCells :=
  targets.filterMap fun t => (cellAt inst period t).map (Prod.mk t.key)

/-- The row of an institution and a period, if it has a cell. -/
def rowOf (payload : ComparisonRequestDTO Uuid) (cellAt : CellSource)
    (targets : List TargetMeasure) (pair : ComparedInstitution × ComparedPeriod) :
    Option DatasetRow :=
  let cells := cellsOf cellAt targets pair.1.id pair.2.id
  if cells.isEmpty then none else some (datasetRow payload pair.1 pair.2 cells)

/-- The loop body of a measure. -/
theorem addTarget_eq_ok {t : TargetMeasure} (ha : Collected payload cellAt slots a)
    (h : addTarget payload cellAt inst period (a, cells) t = .ok (a', cells')) :
    Collected payload cellAt (slots ++ [⟨inst, period, t⟩]) a' ∧ a'.rows = a.rows ∧
      cells' = cells ++ ((cellAt inst.id period.id t).map (Prod.mk t.key)).toList := by
  rw [addTarget] at h
  cases hcell : cellAt inst.id period.id t with
  | some cell =>
    rw [hcell] at h
    obtain ⟨rfl, rfl⟩ := Prod.mk.inj (Except.ok.inj h)
    exact ⟨ha.addCell (s := ⟨inst, period, t⟩) hcell, rfl, rfl⟩
  | none =>
    rw [hcell] at h
    obtain ⟨b, hb, hpair⟩ := exceptMap_eq_ok.mp h
    obtain ⟨rfl, rfl⟩ := Prod.mk.inj hpair
    refine ⟨ha.addMissing (s := ⟨inst, period, t⟩) hcell hb, ?_, by simp⟩
    rw [Assembly.addMissing] at hb
    split at hb
    · cases hb
    · rw [← Except.ok.inj hb]

/-- The loop body of a period of an institution. -/
theorem addRow_eq_ok (ha : Collected payload cellAt slots a)
    (h : addRow payload cellAt targets a pair = .ok a') :
    Collected payload cellAt (slots ++ slotsOf targets pair) a' ∧
      a'.rows = a.rows ++ (rowOf payload cellAt targets pair).toList := by
  obtain ⟨⟨b, cells⟩, hloop, hb⟩ := exceptBind_eq_ok.mp h
  obtain ⟨hcollected, hrows, hcells⟩ := foldlM_collects
    (J := fun seen x => Collected payload cellAt (slots ++ slotsOf seen pair) x.1 ∧
      x.1.rows = a.rows ∧ x.2 = cellsOf cellAt seen pair.1.id pair.2.id)
    (by
      rintro seen ⟨x, cells⟩ t ⟨x', cells'⟩ ⟨hx, hrows, rfl⟩ hstep
      obtain ⟨hx', hrows', rfl⟩ := addTarget_eq_ok hx hstep
      refine ⟨by simpa [slotsOf] using hx', hrows'.trans hrows, ?_⟩
      cases hcell : cellAt pair.1.id pair.2.id t <;> simp [cellsOf, hcell])
    ⟨by simpa [slotsOf] using ha, rfl, rfl⟩ hloop
  dsimp only at hcollected hrows hcells
  subst hcells
  obtain rfl := Except.ok.inj hb
  by_cases hempty : (cellsOf cellAt targets pair.1.id pair.2.id).isEmpty = true
  · rw [if_pos hempty]
    exact ⟨hcollected, by simp [rowOf, hempty, hrows]⟩
  · rw [if_neg hempty]
    refine ⟨⟨hcollected.measures, hcollected.evidence, hcollected.calculations,
      hcollected.warnings, hcollected.populated, hcollected.missing, hcollected.warned,
      hcollected.reported, hcollected.derived, hcollected.outside, hcollected.strict⟩, ?_⟩
    simp [rowOf, hempty, hrows]

end Rows

/-- The pairs in the order of the loops. -/
def pairsOf (insts : List ComparedInstitution) (periods : List ComparedPeriod) :
    List (ComparedInstitution × ComparedPeriod) :=
  insts.flatMap fun inst => periods.map (Prod.mk inst)

/-- The places in the order of the loops. -/
def allSlots (targets : List TargetMeasure) (insts : List ComparedInstitution)
    (periods : List ComparedPeriod) : List Slot :=
  (pairsOf insts periods).flatMap (slotsOf targets)

/-- **The loops** visit every place; a row is there if one of its places has a cell. -/
theorem assemble_eq_ok {insts : List ComparedInstitution} {periods : List ComparedPeriod}
    {a : Assembly} (h : assemble payload cellAt targets insts periods = .ok a) :
    Collected payload cellAt (allSlots targets insts periods) a ∧
      a.rows = (pairsOf insts periods).filterMap (rowOf payload cellAt targets) :=
  foldlM_collects
    (J := fun seen a => Collected payload cellAt (seen.flatMap (slotsOf targets)) a ∧
      a.rows = seen.filterMap (rowOf payload cellAt targets))
    (by
      rintro seen a pair a' ⟨ha, hrows⟩ hstep
      obtain ⟨ha', hrows'⟩ := addRow_eq_ok ha hstep
      refine ⟨by simpa using ha', ?_⟩
      rw [hrows', hrows, List.filterMap_append]
      cases hrow : rowOf payload cellAt targets pair <;> simp [hrow])
    ⟨Collected.empty, rfl⟩ h

end ComparisonService

end FinanceIntelligence
