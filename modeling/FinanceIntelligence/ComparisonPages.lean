import FinanceIntelligence.ComparisonDataset
import FinanceIntelligence.Raising

/-!
# The pages of a comparison

The number of pages is a quotient of doubles; below `2 ^ 40` rows it is the number of pages that
the rows need. From that the pages lose and repeat nothing, and neither does the choice of the
first institutions of each period.

* `lt_totalPages_iff` — **the number of pages**.
* `pages_exact` — **the pages** and the first rows of each period.
-/

namespace FinanceIntelligence

namespace ComparisonService

/-- A page has one after it as long as rows are left. -/
theorem lt_totalPages_iff {totalRows page pageSize p : ℕ} (hrows : totalRows < 2 ^ 40)
    (hsize : 1 ≤ pageSize ∧ pageSize ≤ 100) (hp : 1 ≤ p) :
    p < (makePagination totalRows page pageSize).totalPages ↔ p * pageSize < totalRows := by
  have hceil : ⌈Binary64.div totalRows pageSize⌉ = ⌈(totalRows : ℚ) / pageSize⌉ :=
    Binary64.ceil_div hsize.1 hrows (by norm_num) (by omega)
  have hpos : (0 : ℚ) < pageSize := by exact_mod_cast hsize.1
  calc p < max 1 ⌈Binary64.div totalRows pageSize⌉.toNat
      ↔ (p : ℤ) < ⌈(totalRows : ℚ) / pageSize⌉ := by rw [hceil]; omega
    _ ↔ ((p : ℤ) : ℚ) < (totalRows : ℚ) / pageSize := Int.lt_ceil
    _ ↔ p * pageSize < totalRows := by
      rw [lt_div_iff₀ hpos]
      exact_mod_cast Iff.rfl

/-- There is room for all rows on the pages. -/
theorem le_totalPages_mul {totalRows page pageSize : ℕ} (hrows : totalRows < 2 ^ 40)
    (hsize : 1 ≤ pageSize ∧ pageSize ≤ 100) :
    totalRows ≤ (makePagination totalRows page pageSize).totalPages * pageSize := by
  have hpages : 1 ≤ (makePagination totalRows page pageSize).totalPages := le_max_left 1 _
  exact not_lt.mp fun h => lt_irrefl _ ((lt_totalPages_iff hrows hsize hpages).mpr h)

/-! ## Order -/

/-- Rows that are sorted, with their keys. -/
theorem sortRows_eq_ok {payload : ComparisonRequestDTO Uuid} {U : CharClass}
    {measures : List MeasureItem} {rows sorted : List DatasetRow}
    (h : sortRows payload U measures rows = .ok sorted) :
    ∃ keyed : List (SortKey × DatasetRow), keyed.map (·.2) = rows ∧
      (∀ x ∈ keyed, sortKey payload U measures x.2 = .ok x.1) ∧
      sorted = (sortedBy (·.1) keyed).map (·.2) := by
  obtain ⟨keyed, hkeyed, h⟩ := exceptBind_eq_ok.mp h
  obtain ⟨hrows, hkeys⟩ := mapM_tagged hkeyed
  exact ⟨keyed, hrows, hkeys, (Except.ok.inj h).symm⟩

/-- Sorting keeps the rows. -/
theorem perm_of_sortRows {payload : ComparisonRequestDTO Uuid} {U : CharClass}
    {measures : List MeasureItem} {rows sorted : List DatasetRow}
    (h : sortRows payload U measures rows = .ok sorted) : sorted.Perm rows := by
  obtain ⟨keyed, rfl, -, rfl⟩ := sortRows_eq_ok h
  exact (perm_sortedBy _ keyed).map _

/-! ## Pages -/

/-- What pagination makes of the rows that are kept. -/
structure Paged (kept : List DatasetRow) (page pageSize : ℕ) (p : Pagination) : Prop where
  /-- one page after the other, the rows that are kept -/
  all : ((List.range p.totalPages).map fun i => pageOf (i + 1) pageSize kept).flatten = kept
  /-- a page before the last one is full -/
  full : ∀ q, 1 ≤ q → q < p.totalPages → (pageOf q pageSize kept).length = pageSize
  /-- the last page is not longer -/
  last : (pageOf p.totalPages pageSize kept).length ≤ pageSize
  /-- a page after the last one is empty -/
  past : ∀ q, p.totalPages < q → pageOf q pageSize kept = []
  hasNext : p.hasNext = true ↔ ∃ q, page < q ∧ pageOf q pageSize kept ≠ []
  hasPrevious : p.hasPrevious = true ↔ ∃ q, 1 ≤ q ∧ q < page

/-- The pages of any rows. -/
theorem paged_makePagination {kept : List DatasetRow} {page pageSize : ℕ}
    (hrows : kept.length < 2 ^ 40) (hpage : 1 ≤ page) (hsize : 1 ≤ pageSize ∧ pageSize ≤ 100) :
    Paged kept page pageSize (makePagination kept.length page pageSize) where
  all := by
    rw [flatten_pages]
    exact List.take_of_length_le (le_totalPages_mul hrows hsize)
  full q hq hlt := by
    have hfull := (lt_totalPages_iff hrows hsize hq).mp hlt
    obtain ⟨r, rfl⟩ : ∃ r, q = r + 1 := ⟨q - 1, by omega⟩
    rw [Nat.succ_mul] at hfull
    rw [length_pageOf, Nat.add_sub_cancel]
    omega
  last := by
    rw [length_pageOf]
    exact min_le_left _ _
  past q hlt := by
    have hroom : kept.length ≤ (makePagination kept.length page pageSize).totalPages * pageSize :=
      le_totalPages_mul hrows hsize
    refine not_not.mp (mt (pageOf_ne_nil_iff hsize.1).mp (not_lt.mpr ?_))
    exact hroom.trans (Nat.mul_le_mul_right _ (Nat.le_sub_one_of_lt hlt))
  hasNext := by
    rw [show (makePagination kept.length page pageSize).hasNext = true ↔
      page < (makePagination kept.length page pageSize).totalPages from decide_eq_true_iff,
      lt_totalPages_iff hrows hsize hpage]
    constructor
    · intro hlt
      exact ⟨page + 1, page.lt_succ_self, (pageOf_ne_nil_iff hsize.1).mpr hlt⟩
    · rintro ⟨q, hq, hne⟩
      exact lt_of_le_of_lt (Nat.mul_le_mul_right _ (Nat.le_sub_one_of_lt hq))
        ((pageOf_ne_nil_iff hsize.1).mp hne)
  hasPrevious := by
    rw [show (makePagination kept.length page pageSize).hasPrevious = true ↔ 1 < page from
      decide_eq_true_iff]
    exact ⟨fun h => ⟨1, le_rfl, h⟩, fun ⟨q, hq, hlt⟩ => lt_of_le_of_lt hq hlt⟩

/-- The first rows of each period, in their order. -/
structure FirstPerPeriod (n : ℕ) (rows kept : List DatasetRow) : Prop where
  /-- the rows of a period -/
  firsts : ∀ period, kept.filter (·.reportingPeriodId = period) =
    (rows.filter (·.reportingPeriodId = period)).take
      (min n (rows.countP (·.reportingPeriodId = period)))
  /-- the order of all rows -/
  order : kept.Sublist rows

theorem firstPerPeriod_takePerGroup (n : ℕ) (rows : List DatasetRow) :
    FirstPerPeriod n rows (takePerGroup (·.reportingPeriodId) n (fun _ => 0) rows) where
  firsts period := by
    rw [filter_takePerGroup, Nat.sub_zero, List.countP_eq_length_filter]
    exact List.take_eq_take_min
  order := takePerGroup_sublist _ _

/-- Nothing is kept that was not there. -/
theorem topN_sublist (payload : ComparisonRequestDTO Uuid) (rows : List DatasetRow) :
    (topN payload rows).Sublist rows := by
  rw [topN]
  split
  · exact .refl _
  · split
    · exact List.take_sublist _ _
    · exact takePerGroup_sublist _ _

/-- **The pages lose and repeat nothing**, and neither does the choice of the first institutions of
each period. -/
theorem pages_exact (rows : List DatasetRow) (hrows : rows.length < 2 ^ 40) :
    (∀ n, 1 ≤ n →
      FirstPerPeriod n rows (takePerGroup (·.reportingPeriodId) n (fun _ => 0) rows)) ∧
    ∀ payload : ComparisonRequestDTO Uuid,
      (∀ n ∈ payload.top_n, payload.top_n_scope.val = "INSTITUTIONS_PER_PERIOD" →
        FirstPerPeriod n.val.toNat rows (topN payload rows)) ∧
      ∀ page pageSize, 1 ≤ page → 1 ≤ pageSize ∧ pageSize ≤ 100 →
        Paged (topN payload rows) page pageSize
          (makePagination (topN payload rows).length page pageSize) := by
  refine ⟨fun n _ => firstPerPeriod_takePerGroup n rows, fun payload => ⟨?_, ?_⟩⟩
  · intro n hn hscope
    have htop : topN payload rows =
        takePerGroup (·.reportingPeriodId) n.val.toNat (fun _ => 0) rows := by
      rw [topN, Option.mem_def.mp hn, hscope]
      rfl
    rw [htop]
    exact firstPerPeriod_takePerGroup _ _
  · intro page pageSize hpage hsize
    exact paged_makePagination ((topN_sublist payload rows).length_le.trans_lt hrows) hpage hsize

/-- A row without cells. -/
def bareRow (inst period : Uuid) : DatasetRow where
  rowId := uuidText inst ++ ":" ++ uuidText period
  institutionId := inst
  institutionName := "Bank"
  reportingPeriodId := period
  periodLabel := "Year"
  reportingBasis := "SOLO"
  cells := []

/-- Two banks in a year, and one of them in the year before. -/
theorem pages_exact_three :
    FirstPerPeriod 1 [bareRow 1 5, bareRow 2 5, bareRow 1 4] [bareRow 1 5, bareRow 1 4] :=
  (pages_exact [bareRow 1 5, bareRow 2 5, bareRow 1 4] (by decide)).1 1 le_rfl

end ComparisonService

end FinanceIntelligence
