import FinanceIntelligence.ComparisonReferences

/-!
# The order of the rows of a comparison

Rows are sorted by one number and then by name: the value of the measure that the request names,
with its sign changed for the descending order, and zero for a row without it. The first rows are
the right ones as long as no row is placed before a better one where that shows.

* `mem_topN_iff` — **the rows that are kept** are those with few rows before them.
* `ranksRows_iff` — **the rows are ranked rightly** if no misplaced row shows.
* `noMisplacement_of_plain` — **one series with a value in every row** is ranked rightly.
-/

namespace FinanceIntelligence

/-- In a list in strict order a row with a smaller key comes first. -/
theorem rel_of_pairwise {α κ : Type} [LinearOrder κ] {key : α → κ} {R : α → α → Prop} {l : List α}
    (hl : l.Pairwise fun a b => key a < key b) (hR : l.Pairwise R) {a b : α} (ha : a ∈ l)
    (hb : b ∈ l) (hlt : key a < key b) : R a b := by
  induction l with
  | nil => exact absurd ha List.not_mem_nil
  | cons c l ih =>
    obtain ⟨hc, hl⟩ := List.pairwise_cons.mp hl
    obtain ⟨hRc, hR⟩ := List.pairwise_cons.mp hR
    obtain rfl | hal := List.mem_cons.mp ha
    · obtain rfl | hbl := List.mem_cons.mp hb
      · exact absurd hlt (lt_irrefl _)
      · exact hRc b hbl
    · obtain rfl | hbl := List.mem_cons.mp hb
      · exact absurd hlt (hc a hal).not_gt
      · exact ih hl hR hal hbl

namespace ComparisonService

section Definitions

variable (U : CharClass) (payload : ComparisonRequestDTO Uuid) (measures : List MeasureItem)

/-- The canonical value that a row has for a target. -/
def rowValue (t : TargetMeasure) (r : DatasetRow) : Option ℚ :=
  (r.cells.lookup t.key).bind fun cell => (safeDecimal U cell.canonicalValue).toOption

/-- A value is better than another one in the direction of the request, and than none. -/
def Better : Option ℚ → Option ℚ → Prop
  | some v, some w => if payload.sort_direction.val = "desc" then w < v else v < w
  | some _, none => True
  | none, _ => False

/-- Two rows compete for a place among the first ones. -/
def InScope (r r' : DatasetRow) : Prop :=
  payload.top_n_scope.val = "DATASET_ROWS_GLOBAL" ∨ r.reportingPeriodId = r'.reportingPeriodId

instance (r r' : DatasetRow) : Decidable (InScope payload r r') :=
  inferInstanceAs (Decidable (_ ∨ _))

/-- The series of a target can have values of an origin. -/
def MayShow (t : TargetMeasure) (origin : String) : Prop :=
  policyOf payload = .preferSourceReported ∨ policyOf payload = .preferSystemDerived ∨
    origin = t.defaultOrigin.text

/-- `sort_measure_code` and `sort_origin` name a target of the request. -/
def NamesTarget (t : TargetMeasure) : Prop :=
  RequestTarget payload t ∧
    payload.sort_measure_code = some t.definition.semanticMeasureCode ∧
      ∀ o ∈ payload.sort_origin, MayShow payload t o.val

/-- They name this target and no other. -/
def SortsBy (t : TargetMeasure) : Prop :=
  NamesTarget payload t ∧ ∀ u, NamesTarget payload u → u = t

/-- **The right rows in the right order.** -/
structure RanksRows (t : TargetMeasure) (all kept : List DatasetRow) : Prop where
  /-- the rows with a value come in the order of their values -/
  order : kept.Pairwise fun r r' => ∀ v ∈ rowValue U t r, ∀ v' ∈ rowValue U t r',
    if payload.sort_direction.val = "desc" then v' ≤ v else v ≤ v'
  /-- no row is kept where a better one is dropped -/
  best : ∀ r ∈ kept, ∀ r' ∈ all, r' ∉ kept → InScope payload r r' →
    ¬ Better payload (rowValue U t r') (rowValue U t r)

/-- What the code compares of a row. -/
def rowKey (r : DatasetRow) : SortKey :=
  toLex ((sortValue payload U measures r).toOption.getD 0, toLex (r.institutionName, r.rowId))

/-- The rows that are placed before a row, where they compete with it. -/
def rank (rows : List DatasetRow) (r : DatasetRow) : ℕ :=
  rows.countP fun r' => InScope payload r' r ∧ rowKey U payload measures r' <
    rowKey U payload measures r

/-- Few rows are placed before a row. -/
def AmongFirst (rows : List DatasetRow) (r : DatasetRow) : Prop :=
  ∀ n ∈ payload.top_n, rank U payload measures rows r < n.val.toNat

/-- A row that is placed before a better one does no harm: it is not among the first rows; or it is,
and so is the better one, and it has no value. -/
def NoMisplacement (t : TargetMeasure) (rows : List DatasetRow) : Prop :=
  ∀ r ∈ rows, ∀ r' ∈ rows, Better payload (rowValue U t r') (rowValue U t r) →
    rowKey U payload measures r < rowKey U payload measures r' →
      AmongFirst U payload measures rows r →
        (AmongFirst U payload measures rows r' → rowValue U t r = none) ∧
          (InScope payload r r' → AmongFirst U payload measures rows r')

end Definitions

/-! ## The rows that are kept -/

section Kept

variable {U : CharClass} {payload : ComparisonRequestDTO Uuid} {measures : List MeasureItem}
  {rows sorted : List DatasetRow} {t : TargetMeasure}

/-- **The rows that are kept** are those with few rows before them. -/
theorem mem_topN_iff {key : DatasetRow → SortKey} {l : List DatasetRow}
    (hl : l.Pairwise fun r r' => key r < key r') {r : DatasetRow} :
    r ∈ topN payload l ↔ r ∈ l ∧
      ∀ n ∈ payload.top_n, l.countP (fun r' => InScope payload r' r ∧ key r' < key r) <
        n.val.toNat := by
  rw [topN]
  cases payload.top_n with
  | none => simp
  | some n =>
    simp only [Option.mem_def, Option.some.injEq, forall_eq']
    by_cases hglobal : payload.top_n_scope.val = "DATASET_ROWS_GLOBAL"
    · rw [if_pos hglobal, mem_take_iff hl]
      simp [InScope, hglobal]
    · rw [if_neg hglobal, mem_takePerGroup_iff hl]
      simp [InScope, hglobal]

/-- Rows that are sorted have their keys, in a strict order if the keys differ. -/
theorem pairwise_of_sortRows (h : sortRows payload U measures rows = .ok sorted)
    (hnodup : (rows.map (rowKey U payload measures)).Nodup) :
    sorted.Pairwise fun r r' => rowKey U payload measures r < rowKey U payload measures r' := by
  obtain ⟨keyed, rfl, hkeys, rfl⟩ := sortRows_eq_ok h
  have hkey : ∀ x ∈ keyed, rowKey U payload measures x.2 = x.1 := by
    intro x hx
    obtain ⟨v, hv, hx⟩ := exceptMap_eq_ok.mp (hkeys x hx)
    rw [rowKey, hv, ← hx]
    rfl
  have hnodup' : (keyed.map (·.1)).Nodup := by
    rw [List.map_map] at hnodup
    rwa [← List.map_congr_left hkey]
  refine List.pairwise_map.mpr ((pairwise_lt_sortedBy hnodup').imp_of_mem ?_)
  intro x y hx hy hlt
  rwa [hkey x ((mem_sortedBy _ _).mp hx), hkey y ((mem_sortedBy _ _).mp hy)]

/-- What is placed before a row that is among the first ones is among them. -/
theorem amongFirst_of_lt {r r' : DatasetRow} (hscope : InScope payload r r')
    (hlt : rowKey U payload measures r' < rowKey U payload measures r)
    (h : AmongFirst U payload measures rows r) : AmongFirst U payload measures rows r' := by
  intro n hn
  refine lt_of_le_of_lt (List.countP_mono_left fun x _ hx => ?_) (h n hn)
  simp only [decide_eq_true_eq] at hx ⊢
  refine ⟨?_, hx.2.trans hlt⟩
  obtain hglobal | hperiod := hscope
  · exact .inl hglobal
  · exact hx.1.imp id fun hx => hx.trans hperiod.symm

/-- **The rows are ranked rightly** exactly if no misplaced row shows. -/
theorem ranksRows_topN_iff (h : sortRows payload U measures rows = .ok sorted)
    (hnodup : (rows.map (rowKey U payload measures)).Nodup) :
    RanksRows U payload t rows (topN payload sorted) ↔
      NoMisplacement U payload measures t rows := by
  have hstrict := pairwise_of_sortRows h hnodup
  have hperm := perm_of_sortRows h
  have hkept (r : DatasetRow) : r ∈ topN payload sorted ↔
      r ∈ rows ∧ AmongFirst U payload measures rows r := by
    rw [mem_topN_iff hstrict, hperm.mem_iff]
    simp only [AmongFirst, rank, hperm.countP_eq]
  have hstrict' := hstrict.sublist (topN_sublist payload sorted)
  constructor
  · intro hranks r hr r' hr' hbetter hlt hfirst
    have hmem := (hkept r).mpr ⟨hr, hfirst⟩
    constructor
    · intro hfirst'
      by_contra hvalue
      obtain ⟨v, hv⟩ := Option.ne_none_iff_exists'.mp hvalue
      have horder := rel_of_pairwise hstrict' hranks.order hmem ((hkept r').mpr ⟨hr', hfirst'⟩) hlt
      rw [hv] at hbetter horder
      cases hv' : rowValue U t r' with
      | none =>
        rw [hv'] at hbetter
        exact hbetter
      | some v' =>
        rw [hv'] at hbetter horder
        have hle := horder v rfl v' rfl
        simp only [Better] at hbetter
        split at hle
        · rw [if_pos ‹_›] at hbetter
          exact absurd hle (not_le.mpr hbetter)
        · rw [if_neg ‹_›] at hbetter
          exact absurd hle (not_le.mpr hbetter)
    · intro hscope
      by_contra hfirst'
      exact hranks.best r hmem r' hr' (fun hmem' => hfirst' ((hkept r').mp hmem').2) hscope hbetter
  · intro hnone
    refine ⟨?_, ?_⟩
    · refine hstrict'.imp_of_mem fun {r r'} hmem hmem' hlt v hv v' hv' => ?_
      obtain ⟨hr, hfirst⟩ := (hkept r).mp hmem
      obtain ⟨hr', hfirst'⟩ := (hkept r').mp hmem'
      by_contra hwrong
      have hbetter : Better payload (rowValue U t r') (rowValue U t r) := by
        rw [Option.mem_def.mp hv, Option.mem_def.mp hv', Better]
        split at hwrong
        · rw [if_pos ‹_›]
          exact not_le.mp hwrong
        · rw [if_neg ‹_›]
          exact not_le.mp hwrong
      have hnil := (hnone r hr r' hr' hbetter hlt hfirst).1 hfirst'
      rw [Option.mem_def.mp hv] at hnil
      cases hnil
    · intro r hmem r' hr' hdropped hscope hbetter
      obtain ⟨hr, hfirst⟩ := (hkept r).mp hmem
      have hfirst' : ¬ AmongFirst U payload measures rows r' := fun hfirst' =>
        hdropped ((hkept r').mpr ⟨hr', hfirst'⟩)
      obtain hlt | heq | hgt := lt_trichotomy (rowKey U payload measures r)
        (rowKey U payload measures r')
      · exact hfirst' ((hnone r hr r' hr' hbetter hlt hfirst).2 hscope)
      · rw [List.inj_on_of_nodup_map hnodup hr hr' heq] at hmem
        exact hdropped hmem
      · exact hfirst' (amongFirst_of_lt hscope hgt hfirst)

end Kept

/-! ## Comparisons -/

section Comparisons

variable {cfg : ComparisonConfig} {d : ComparisonDb} {organizationId : Uuid}
  {payload : ComparisonRequestDTO Uuid} {order : RowOrder} {c : Comparison}
  {defs : List SemanticMeasureDefinition} {found : MatchedRows} {scaleDiv : ℚ}
  {sorted : List DatasetRow}

theorem length_uuidText (id : Uuid) : (uuidText id).toList.length = 36 := by
  simp [uuidText]

/-- The id of a row tells its place. -/
theorem rowId_inj {inst period inst' period' : Uuid}
    (h : uuidText inst ++ ":" ++ uuidText period = uuidText inst' ++ ":" ++ uuidText period') :
    inst = inst' ∧ period = period' := by
  have hlist := congrArg String.toList h
  simp only [String.toList_append] at hlist
  obtain ⟨hleft, hperiod⟩ := List.append_inj hlist (by simp [length_uuidText])
  obtain ⟨hinst, -⟩ := List.append_inj hleft (by simp [length_uuidText])
  exact ⟨uuidText_injective hinst, uuidText_injective hperiod⟩

theorem ComputedFrom.rowId_eq
    (hc : ComputedFrom cfg d organizationId payload order c defs found scaleDiv sorted)
    {row : DatasetRow} (hrow : row ∈ c.assembly.rows) :
    row.rowId = uuidText row.institutionId ++ ":" ++ uuidText row.reportingPeriodId := by
  rw [(assemble_eq_ok hc.assembly).2] at hrow
  obtain ⟨pair, -, hpair⟩ := List.mem_filterMap.mp hrow
  obtain ⟨-, rfl⟩ := rowOf_eq_some_iff.mp hpair
  rfl

/-- The keys of the rows differ. -/
theorem ComputedFrom.nodup_rowKey
    (hc : ComputedFrom cfg d organizationId payload order c defs found scaleDiv sorted)
    (U : CharClass) (measures : List MeasureItem) :
    (c.assembly.rows.map (rowKey U payload measures)).Nodup := by
  refine (List.nodup_map_iff_inj_on (List.Nodup.of_map _ hc.nodup_place)).mpr ?_
  intro row hrow row' hrow' hkey
  have hid : row.rowId = row'.rowId :=
    congrArg (fun key : SortKey => (ofLex (ofLex key).2).2) hkey
  rw [hc.rowId_eq hrow, hc.rowId_eq hrow'] at hid
  exact hc.eq_of_place hrow hrow' (rowId_inj hid)

end Comparisons

/-! ## One series -/

section OneSeries

variable {U : CharClass} {payload : ComparisonRequestDTO Uuid} {measures : List MeasureItem}
  {rows : List DatasetRow} {t : TargetMeasure}

/-- The measure that is named is what rows are sorted by, where it has one series. -/
theorem sortMeasureKey_of_named (hpolicy : policyOf payload ≠ .bothSeparateSeries)
    (h : NamesTarget payload t) : sortMeasureKey payload measures = some t.key := by
  obtain ⟨⟨sel, -, defn, hget, ht⟩, hcode, -⟩ := h
  rw [SemanticMeasureDefinition.definition_of_mem_targets ht] at hcode
  have hne := SemanticMeasureRegistry.definitions_codes_ne defn
    (SemanticMeasureRegistry.mem_of_get hget)
  rw [sortMeasureKey, hcode, SemanticMeasureDefinition.key_of_mem_targets hpolicy ht]
  simp [hne]

/-- The number in the key of a row. -/
theorem sortValue_of_named (h : sortMeasureKey payload measures = some t.key) (r : DatasetRow) :
    (sortValue payload U measures r).toOption.getD 0 = (rowValue U t r).elim 0 fun v =>
      if payload.sort_direction.val = "desc" then Decimal.defaultContext.round (-v) else v := by
  rw [sortValue, h, rowValue, Option.bind_some]
  cases r.cells.lookup t.key with
  | none => rfl
  | some cell =>
    dsimp only
    rw [Option.bind_some]
    cases safeDecimal U cell.canonicalValue <;> rfl

/-- **One series with a value in every row**, or with all rows shown, is ranked rightly, as long as
the sign of a value can be changed without rounding. -/
theorem noMisplacement_of_plain (hpolicy : policyOf payload ≠ .bothSeparateSeries)
    (ht : SortsBy payload t)
    (hvalues : payload.top_n = none ∨ ∀ r ∈ rows, (rowValue U t r).isSome)
    (hdigits : payload.sort_direction.val = "desc" → ∀ r ∈ rows, ∀ v ∈ rowValue U t r,
      Decimal.defaultContext.round (-v) = -v) :
    NoMisplacement U payload measures t rows := by
  intro r hr r' hr' hbetter hlt hfirst
  have hkey : sortMeasureKey payload measures = some t.key := sortMeasureKey_of_named hpolicy ht.1
  cases hv : rowValue U t r with
  | none =>
    refine ⟨fun _ => rfl, fun _ => ?_⟩
    obtain hall | hsome := hvalues
    · intro n hn
      rw [hall] at hn
      cases hn
    · have hr := hsome r hr
      rw [hv] at hr
      cases hr
  | some v =>
    cases hv' : rowValue U t r' with
    | none =>
      rw [hv'] at hbetter
      exact hbetter.elim
    | some v' =>
      rw [hv, hv'] at hbetter
      refine absurd ?_ hlt.asymm
      have hnumber := sortValue_of_named (U := U) hkey r
      have hnumber' := sortValue_of_named (U := U) hkey r'
      rw [hv, Option.elim_some] at hnumber
      rw [hv', Option.elim_some] at hnumber'
      rw [rowKey, rowKey, hnumber, hnumber', Prod.Lex.toLex_lt_toLex]
      rw [Better] at hbetter
      refine .inl ?_
      split at hbetter
      · rename_i hdesc
        rw [if_pos hdesc, if_pos hdesc, hdigits hdesc r hr v hv, hdigits hdesc r' hr' v' hv']
        exact neg_lt_neg hbetter
      · rename_i hasc
        rw [if_neg hasc, if_neg hasc]
        exact hbetter

end OneSeries

/-- **The rows of an answer** are the right ones in the right order exactly if no misplaced row
shows. Rows without a value are compared as if they had the value zero, which is where a row can be
misplaced. -/
theorem ranksRows_iff {cfg : ComparisonConfig} {organizationId : Uuid}
    {payload : ComparisonRequestDTO Uuid} {order : RowOrder} {stamp : RunStamp}
    {s s' : ComparisonStore} {response : ComparisonResponse}
    (h : executeComparison cfg organizationId payload order stamp s = .ok (response, s')) :
    ∃ c, compute cfg s.db organizationId payload order = .ok c ∧
      s' = s.add (datasetRecord organizationId response c.rows) ∧
      ((∀ t, SortsBy payload t →
          RanksRows cfg.digests.chars payload t c.assembly.rows c.rows) ↔
        ∀ t, SortsBy payload t →
          NoMisplacement cfg.digests.chars payload c.assembly.measures t c.assembly.rows) := by
  obtain ⟨c, hc, rfl, hs'⟩ := executeComparison_eq_ok h
  obtain ⟨defs, found, scaleDiv, sorted, hfrom⟩ := compute_eq_ok hc
  refine ⟨c, hc, hs', forall₂_congr fun t _ => ?_⟩
  rw [hfrom.rows]
  exact ranksRows_topN_iff hfrom.order (hfrom.nodup_rowKey _ _)

/-! ## A separate series -/

/-- The loans of two years in ascending order, as a series of their own. -/
def separateLoansRequest : ComparisonRequestDTO Uuid :=
  { bestLoansRequest with
    value_source_policy := ⟨"BOTH_SEPARATE_SERIES", by decide⟩
    sort_measure_code := some "TOTAL_LOANS"
    sort_origin := some ⟨"SOURCE_REPORTED", by decide⟩
    sort_direction := ⟨"asc", by decide⟩
    top_n := none }

/-- The series of the reported loans. -/
def reportedLoans : TargetMeasure where
  key := "TOTAL_LOANS:SOURCE_REPORTED"
  definition := SemanticMeasureRegistry.sourceReported .currency ("TOTAL_LOANS", "Total Loans")
  defaultOrigin := .sourceReported

theorem sortsBy_reportedLoans : SortsBy separateLoansRequest reportedLoans := by
  have hget : SemanticMeasureRegistry.get "TOTAL_LOANS" = .ok reportedLoans.definition := by
    decide +kernel
  have htargets : reportedLoans.definition.targets (policyOf separateLoansRequest) =
      [reportedLoans] := by decide +kernel
  refine ⟨⟨⟨_, List.mem_singleton_self _, reportedLoans.definition, hget, ?_⟩, rfl, ?_⟩, ?_⟩
  · rw [htargets]
    exact List.mem_singleton_self _
  · intro o ho
    obtain rfl := Option.some.inj ho
    exact .inr (.inr rfl)
  · rintro u ⟨⟨sel, hsel, defn, hget', hu⟩, -⟩
    obtain rfl := List.mem_singleton.mp hsel
    obtain rfl := Except.ok.inj (hget.symm.trans hget')
    rw [htargets] at hu
    exact List.mem_singleton.mp hu

/-- The year with the larger loans comes first. -/
theorem separateLoans_answered : ∃ response s' c,
    executeComparison asciiConfig 1 separateLoansRequest .inserted ⟨100, 101, 0⟩
      (bankYear loansTables) = .ok (response, s') ∧
    compute asciiConfig (bankYear loansTables).db 1 separateLoansRequest .inserted = .ok c ∧
    c.rows.map (rowValue asciiConfig.digests.chars reportedLoans) = [some 200, some 150] := by
  have hok : (executeComparison asciiConfig 1 separateLoansRequest .inserted ⟨100, 101, 0⟩
      (bankYear loansTables)).isOk = true := by decide +kernel
  have hvalues : (compute asciiConfig (bankYear loansTables).db 1 separateLoansRequest
      .inserted).toOption.map (fun c => c.rows.map
        (rowValue asciiConfig.digests.chars reportedLoans)) = some [some 200, some 150] := by
    decide +kernel
  obtain ⟨⟨response, s'⟩, h⟩ := exists_of_isOk hok
  obtain ⟨c, hc, -⟩ := executeComparison_eq_ok h
  rw [hc] at hvalues
  exact ⟨response, s', c, h, hc, Option.some.inj hvalues⟩

/-- The answer with a separate series. -/
theorem ranksRows_iff_separateLoans : ∃ response s' c,
    executeComparison asciiConfig 1 separateLoansRequest .inserted ⟨100, 101, 0⟩
      (bankYear loansTables) = .ok (response, s') ∧
    compute asciiConfig (bankYear loansTables).db 1 separateLoansRequest .inserted = .ok c ∧
    ((∀ t, SortsBy separateLoansRequest t →
        RanksRows asciiConfig.digests.chars separateLoansRequest t c.assembly.rows c.rows) ↔
      ∀ t, SortsBy separateLoansRequest t →
        NoMisplacement asciiConfig.digests.chars separateLoansRequest c.assembly.measures t
          c.assembly.rows) := by
  obtain ⟨response, s', -, h, -⟩ := separateLoans_answered
  obtain ⟨c, hc, -, hiff⟩ := ranksRows_iff h
  exact ⟨response, s', c, h, hc, hiff⟩

/-- **A series that is not sorted by**: in ascending order 200 comes before 150. -/
theorem not_ranksRows_separateLoans : ∃ response s' c,
    executeComparison asciiConfig 1 separateLoansRequest .inserted ⟨100, 101, 0⟩
      (bankYear loansTables) = .ok (response, s') ∧
    compute asciiConfig (bankYear loansTables).db 1 separateLoansRequest .inserted = .ok c ∧
    ¬ ∀ t, SortsBy separateLoansRequest t →
      RanksRows asciiConfig.digests.chars separateLoansRequest t c.assembly.rows c.rows := by
  obtain ⟨response, s', c, h, hc, hvalues⟩ := separateLoans_answered
  refine ⟨response, s', c, h, hc, fun hranks => ?_⟩
  have horder : (c.rows.map (rowValue asciiConfig.digests.chars reportedLoans)).Pairwise
      fun x y => ∀ v ∈ x, ∀ v' ∈ y,
        if separateLoansRequest.sort_direction.val = "desc" then v' ≤ v else v ≤ v' :=
    List.pairwise_map.mpr (hranks _ sortsBy_reportedLoans).order
  rw [hvalues] at horder
  have hle := (List.pairwise_cons.mp horder).1 (some 150) (List.mem_singleton_self _)
    200 rfl 150 rfl
  rw [if_neg (by decide)] at hle
  exact absurd hle (by norm_num)

end ComparisonService

end FinanceIntelligence
