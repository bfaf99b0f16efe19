import FinanceIntelligence.FactExtraction

/-!
# Extractions that come to their end

One row of a table or one figure of a model that raises fails the extraction of the
whole document.

* `OneMeaning` — **a label that can be looked up**: it matches at most one alias of the
  tenant, or none and at most one metric.
* `Storable` — **a figure that the columns take**: it is there already, or its texts and
  its two numbers fit.
* `extractCandidates_isOk_iff` — the extraction comes to its end exactly if every row and
  every figure that it reaches is such.
-/

namespace FinanceIntelligence

section Lookups

variable {α : Type} {f : α → LikeResult} {rows : List α}

/-- At most one of the rows matches, and no comparison raises. -/
def AtMostOne (f : α → LikeResult) (rows : List α) : Prop :=
  (∀ row ∈ rows, f row ≠ .badPattern) ∧ (rows.filter fun row => f row == .yes).length ≤ 1

theorem selectOne_isOk_iff : (∃ o, selectOne f rows = .ok o) ↔ AtMostOne f rows := by
  rw [selectOne, AtMostOne]
  split
  · rename_i hbad
    refine iff_of_false nofun fun h => ?_
    obtain ⟨row, hrow, heq⟩ := List.any_eq_true.mp hbad
    exact h.1 row hrow (by simpa using heq)
  · rename_i hbad
    have hgood : ∀ row ∈ rows, f row ≠ .badPattern := fun row hrow heq =>
      hbad (List.any_eq_true.mpr ⟨row, hrow, by simp [heq]⟩)
    rw [and_iff_right hgood]
    split
    · rename_i hmatch
      exact iff_of_true ⟨_, rfl⟩ (by rw [hmatch, List.length_nil]; omega)
    · rename_i hmatch
      exact iff_of_true ⟨_, rfl⟩ (by rw [hmatch, List.length_singleton])
    · rename_i hmatch
      refine iff_of_false nofun fun h => ?_
      rw [hmatch, List.length_cons, List.length_cons] at h
      omega

/-- No row is found where none matches. -/
theorem selectOne_eq_none {o : Option α} (h : selectOne f rows = .ok o) :
    o = none ↔ ∀ row ∈ rows, f row ≠ .yes := by
  rw [selectOne] at h
  split at h
  · cases h
  · split at h
    · rename_i hnil
      cases h
      refine iff_of_true rfl fun row hrow heq => ?_
      have hmem : row ∈ rows.filter fun row => f row == .yes :=
        List.mem_filter.mpr ⟨hrow, by simp [heq]⟩
      rw [hnil] at hmem
      cases hmem
    · rename_i row hone
      cases h
      refine iff_of_false nofun fun hall => ?_
      have hmem : row ∈ rows.filter fun row => f row == .yes := hone ▸ List.mem_singleton_self row
      exact hall row (List.mem_of_mem_filter hmem) (by simpa using List.of_mem_filter hmem)
    · cases h

end Lookups

/-- **A label that can be looked up.** -/
def OneMeaning (U : CharClass) (T : TextCase) (d : Dictionary) (organizationId : Uuid)
    (rawLabel : List Char) : Prop :=
  let pattern := T.lower (strip U rawLabel)
  let own := d.aliases.filter fun row => row.organizationId == organizationId
  Char.ofNat 0 ∉ pattern ∧ AtMostOne (fun row => d.ilike row.aliasPattern pattern) own ∧
    ((∀ row ∈ own, d.ilike row.aliasPattern pattern ≠ .yes) →
      AtMostOne (d.metricMatches pattern) d.metrics)

theorem matchMetricAlias_isOk_iff {U : CharClass} {T : TextCase} {d : Dictionary} {org : Uuid}
    {rawLabel : List Char} :
    (∃ o, d.matchMetricAlias U T org rawLabel = .ok o) ↔ OneMeaning U T d org rawLabel := by
  simp only [Dictionary.matchMetricAlias, OneMeaning]
  by_cases hnul : Char.ofNat 0 ∈ T.lower (strip U rawLabel)
  · rw [if_pos hnul]
    exact iff_of_false nofun fun h => h.1 hnul
  rw [if_neg hnul, and_iff_right hnul, ← selectOne_isOk_iff]
  simp only [exceptBind_eq_ok]
  constructor
  · rintro ⟨o, found, hfound, ho⟩
    refine ⟨⟨found, hfound⟩, fun hnone => ?_⟩
    obtain rfl := (selectOne_eq_none hfound).mpr hnone
    exact selectOne_isOk_iff.mp ⟨o, ho⟩
  · rintro ⟨⟨found, hfound⟩, hmetrics⟩
    cases found with
    | some row => exact ⟨_, some row, hfound, rfl⟩
    | none =>
      obtain ⟨o, ho⟩ := selectOne_isOk_iff.mpr (hmetrics ((selectOne_eq_none hfound).mp rfl))
      exact ⟨o, none, hfound, ho⟩

/-! ## Figures -/

/-- A column keeps the number, and the scaled number. -/
def ValueFits (U : CharClass) (T : TextCase) (v : PyDecimal) (scale : List Char) : Prop :=
  (storeDecimal v).isSome = true ∧
    ∃ w, NormalizationService.normalizeScale U T v scale = .ok w ∧ (storeDecimal w).isSome = true

/-- **A figure that the columns take.** -/
def Storable (U : CharClass) (T : TextCase) (store : CandidateStore) (args : CandidateArgs) : Prop :=
  (CandidateCreation.existing U store args).isSome = true ∨
    store.accepts args = true ∧
      ∃ parsed, NormalizationService.parseFinancialDecimal U T args.rawValue none = .ok parsed ∧
        ∀ v ∈ parsed.value, ValueFits U T v args.rawScale

namespace CandidateCreation

open NormalizationService

variable {U : CharClass} {T : TextCase} {store : CandidateStore} {args : CandidateArgs}

theorem storeOptional_isOk_iff {v : PyDecimal} :
    (∃ o, storeOptional (some v) = .ok o) ↔ (storeDecimal v).isSome = true := by
  rw [storeOptional]
  cases storeDecimal v <;> simp

/-- **When a candidate is created**: unless it is there already, the lookup of its metric must not
raise, and the columns have to take the figure. -/
theorem createCandidate_isOk_iff :
    (∃ x, createCandidate U T store args = .ok x) ↔
      (existing U store args = none → ∃ metric, lookupMetric store args = .ok metric) ∧
        Storable U T store args := by
  rw [Storable]
  cases hexisting : existing U store args with
  | some row => exact iff_of_true ⟨_, by rw [createCandidate, hexisting]⟩ ⟨nofun, .inl rfl⟩
  | none =>
    rw [or_iff_right (by simp), imp_iff_right rfl]
    constructor
    · rintro ⟨⟨row, store'⟩, h⟩
      obtain ⟨haccepts, metric, parsed, normalized, column, column', hmetric, hparsed, hnormalized,
        hcolumn, hcolumn', -⟩ := newRow_eq_ok.mp ((createCandidate_eq_ok hexisting).mp h).1
      refine ⟨⟨metric, hmetric⟩, haccepts, parsed, hparsed, fun v hv => ?_⟩
      rw [Option.mem_def.mp hv] at hcolumn hnormalized
      obtain ⟨w, hw, rfl⟩ := exceptMap_eq_ok.mp hnormalized
      exact ⟨storeOptional_isOk_iff.mp ⟨_, hcolumn⟩, w, exceptMapError_eq_ok.mp hw,
        storeOptional_isOk_iff.mp ⟨_, hcolumn'⟩⟩
    · rintro ⟨⟨metric, hmetric⟩, haccepts, parsed, hparsed, hvalue⟩
      -- the columns take the numbers, if there are any
      obtain ⟨normalized, column, column', hnormalized, hcolumn, hcolumn'⟩ :
          ∃ normalized column column', normalizedOf U T parsed.value args.rawScale = .ok normalized ∧
            storeOptional parsed.value = .ok column ∧ storeOptional normalized = .ok column' := by
        cases hv : parsed.value with
        | none => exact ⟨none, none, none, rfl, rfl, rfl⟩
        | some v =>
          obtain ⟨hcolumn, w, hw, hcolumn'⟩ := hvalue v hv
          obtain ⟨column, hcolumn⟩ := storeOptional_isOk_iff.mpr hcolumn
          obtain ⟨column', hcolumn'⟩ := storeOptional_isOk_iff.mpr hcolumn'
          exact ⟨some w, column, column', by rw [normalizedOf, hw]; rfl, hcolumn, hcolumn'⟩
      exact ⟨_, (createCandidate_eq_ok hexisting).mpr ⟨newRow_eq_ok.mpr ⟨haccepts, metric, parsed,
        normalized, column, column', hmetric, hparsed, hnormalized, hcolumn, hcolumn', rfl⟩, rfl⟩⟩

end CandidateCreation

namespace FactExtractionService

variable {R : ReaderText} {filing : Filing} {context : DocumentContext}
  {institutionId periodId : Uuid}

/-! ## The steps of an extraction -/

/-- A candidate that can be recorded: the label has one meaning where it is looked up,
and the columns take the figure. -/
def Recordable (R : ReaderText) (d : Dictionary) (rows : List CandidateRow) (args : CandidateArgs) :
    Prop :=
  (looksUpLabel R d rows args = true →
      OneMeaning R.chars.toCharClass R.letters d args.organizationId args.rawLabel) ∧
    Storable R.chars.toCharClass R.letters (candidateStore R d rows) args

/-- **How a candidate is recorded.** -/
theorem recordCandidate_eq_ok {d : Dictionary} {rows rows' : List CandidateRow}
    {args : CandidateArgs} :
    recordCandidate R d rows args = .ok rows' ↔
      ∃ row store, CandidateCreation.createCandidate R.chars.toCharClass R.letters
        (candidateStore R d rows) args = .ok (row, store) ∧ store.rows = rows' := by
  rw [recordCandidate, exceptMap_eq_ok]
  constructor
  · rintro ⟨⟨row, store⟩, hcreate, rfl⟩
    exact ⟨row, store, exceptMapError_eq_ok.mp hcreate, rfl⟩
  · rintro ⟨row, store, hcreate, rfl⟩
    exact ⟨(row, store), exceptMapError_eq_ok.mpr hcreate, rfl⟩

/-- The lookup of the metric does not raise where the label is not looked up, or has one meaning. -/
theorem lookupMetric_isOk_iff {d : Dictionary} {rows : List CandidateRow} {args : CandidateArgs} :
    (CandidateCreation.existing R.chars.toCharClass (candidateStore R d rows) args = none →
        ∃ metric, CandidateCreation.lookupMetric (candidateStore R d rows) args = .ok metric) ↔
      (looksUpLabel R d rows args = true →
        OneMeaning R.chars.toCharClass R.letters d args.organizationId args.rawLabel) := by
  rw [looksUpLabel, Bool.and_eq_true, and_imp, Option.isNone_iff_eq_none]
  refine imp_congr_right fun _ => ?_
  rw [← matchMetricAlias_isOk_iff, CandidateCreation.lookupMetric]
  have hcode : (args.metricCode.filter (· ≠ "")).bind (candidateStore R d rows).metricByCode =
      (args.metricCode.filter (· ≠ "")).bind d.metricByCode := rfl
  rw [hcode]
  cases (args.metricCode.filter (· ≠ "")).bind d.metricByCode with
  | some metric => exact iff_of_true ⟨_, rfl⟩ nofun
  | none =>
    rw [imp_iff_right (by simp)]
    constructor
    · rintro ⟨metric, hmetric⟩
      obtain ⟨o, ho, -⟩ := exceptMap_eq_ok.mp hmetric
      exact ⟨o, ho⟩
    · rintro ⟨o, ho⟩
      exact ⟨_, exceptMap_eq_ok.mpr ⟨o, ho, rfl⟩⟩

theorem recordCandidate_isOk_iff {d : Dictionary} {rows : List CandidateRow}
    {args : CandidateArgs} :
    (∃ rows', recordCandidate R d rows args = .ok rows') ↔ Recordable R d rows args := by
  rw [Recordable, ← lookupMetric_isOk_iff, ← CandidateCreation.createCandidate_isOk_iff]
  simp only [recordCandidate_eq_ok]
  constructor
  · rintro ⟨rows', row, store, hcreate, -⟩
    exact ⟨_, hcreate⟩
  · rintro ⟨⟨row, store⟩, hcreate⟩
    exact ⟨store.rows, row, store, hcreate, rfl⟩

/-- A row of a table that does no harm: the extraction is over, or the label has one
meaning and, if it is a metric, the candidate can be recorded. -/
def HarmlessRow (R : ReaderText) (filing : Filing) (context : DocumentContext)
    (institutionId periodId : Uuid) (chunk : Chunk) (s : Progress)
    (row : List Char × List Char) : Prop :=
  s.full = true ∨ maxCandidatesPerVersion ≤ s.created ∨
    OneMeaning R.chars.toCharClass R.letters filing.dictionary filing.organizationId row.1 ∧
      ∀ m, filing.dictionary.matchMetricAlias R.chars.toCharClass R.letters filing.organizationId
          row.1 = .ok (some m) →
        Recordable R filing.dictionary s.rows
          (tableArgs filing context institutionId periodId chunk row)

theorem tableStep_isOk_iff {chunk : Chunk} (s : Progress) (row : List Char × List Char) :
    (∃ s', tableStep R filing context institutionId periodId chunk s row = .ok s') ↔
      HarmlessRow R filing context institutionId periodId chunk s row := by
  rw [tableStep, HarmlessRow]
  split
  · rename_i hfull
    exact iff_of_true ⟨_, rfl⟩ (.inl hfull)
  rename_i hfull
  split
  · rename_i hmax
    exact iff_of_true ⟨_, rfl⟩ (.inr (.inl hmax))
  rename_i hmax
  rw [or_iff_right hfull, or_iff_right hmax, ← matchMetricAlias_isOk_iff]
  simp only [exceptBind_eq_ok, exceptMapError_eq_ok]
  constructor
  · rintro ⟨s', o, ho, h⟩
    refine ⟨⟨o, ho⟩, fun m hm => ?_⟩
    obtain rfl := Except.ok.inj (ho.symm.trans hm)
    obtain ⟨rows, hrows, -⟩ := exceptBind_eq_ok.mp h
    exact recordCandidate_isOk_iff.mp ⟨rows, hrows⟩
  · rintro ⟨⟨o, ho⟩, hmatched⟩
    cases o with
    | none => exact ⟨_, none, ho, rfl⟩
    | some m =>
      obtain ⟨rows, hrows⟩ := recordCandidate_isOk_iff.mpr (hmatched m ho)
      exact ⟨_, some m, ho, exceptBind_eq_ok.mpr ⟨rows, hrows, rfl⟩⟩

/-- A chunk that does no harm: it is not read, or its cells can be read and its rows do
no harm, each in the state that the rows before it leave. -/
def HarmlessChunk (R : ReaderText) (filing : Filing) (context : DocumentContext)
    (institutionId periodId : Uuid) (s : Progress) (chunk : Chunk) : Prop :=
  (s.full = true ∨ chunk.chunkType ≠ "TABLE") ∨
    ∃ rows, iterTableRows R chunk.content = .ok rows ∧
      Admits (tableStep R filing context institutionId periodId chunk)
        (HarmlessRow R filing context institutionId periodId chunk) s rows

theorem chunkStep_isOk_iff (s : Progress) (chunk : Chunk) :
    (∃ s', chunkStep R filing context institutionId periodId s chunk = .ok s') ↔
      HarmlessChunk R filing context institutionId periodId s chunk := by
  rw [chunkStep, HarmlessChunk]
  split
  · rename_i hskip
    exact iff_of_true ⟨_, rfl⟩ (.inl hskip)
  · rename_i hskip
    rw [or_iff_right hskip]
    simp only [exceptBind_eq_ok, exceptMapError_eq_ok, ← foldlM_isOk_iff tableStep_isOk_iff]
    exact ⟨fun ⟨s', rows, hrows, h⟩ => ⟨rows, hrows, s', h⟩,
      fun ⟨rows, hrows, s', h⟩ => ⟨s', rows, hrows, h⟩⟩

/-- The content of a filing whose figures the model reads: every entry can be read, and
every figure that is kept can be recorded. -/
def HarmlessAnswers (R : ReaderText) (filing : Filing) (context : DocumentContext)
    (institutionId periodId : Uuid) (invoke : ℕ → LlmFactExtractionService.Batch →
      List LlmFactExtractionService.ToolCall) (chunks : List Chunk) (rows : List CandidateRow) :
    Prop :=
  (filing.dictionary.activeCodes ≠ [] → ∀ batch figure,
      LlmFactExtractionService.Reported R invoke (chunks.map (·.content)) batch figure →
      LlmFactExtractionService.ReadableFigure R batch filing.dictionary.activeCodes
        context.periodEnd figure) ∧
    ∀ result, LlmFactExtractionService.extract R invoke (chunks.map (·.content))
        filing.dictionary.activeCodes context.periodEnd = .ok result →
      Admits (factStep R filing context institutionId periodId chunks)
        (fun rows fact => Recordable R filing.dictionary rows
          (factArgs filing context institutionId periodId chunks fact))
        rows (result.facts.take maxCandidatesPerVersion)

theorem readWithModel_isOk_iff {invoke : ℕ → LlmFactExtractionService.Batch →
    List LlmFactExtractionService.ToolCall} {chunks : List Chunk} {rows : List CandidateRow} :
    (∃ x, readWithModel R filing context institutionId periodId invoke chunks rows = .ok x) ↔
      HarmlessAnswers R filing context institutionId periodId invoke chunks rows := by
  have hfact : ∀ rows fact,
      (∃ rows', factStep R filing context institutionId periodId chunks rows fact = .ok rows') ↔
        Recordable R filing.dictionary rows
          (factArgs filing context institutionId periodId chunks fact) :=
    fun _ _ => recordCandidate_isOk_iff
  rw [HarmlessAnswers, ← LlmFactExtractionService.extract_isOk_iff, readWithModel]
  simp only [exceptBind_eq_ok, exceptMapError_eq_ok, ← foldlM_isOk_iff hfact]
  constructor
  · rintro ⟨x, result, hresult, rows', hrows', -⟩
    refine ⟨⟨result, hresult⟩, fun r hr => ?_⟩
    obtain rfl := Except.ok.inj (hresult.symm.trans hr)
    exact ⟨rows', hrows'⟩
  · rintro ⟨⟨result, hresult⟩, hfacts⟩
    obtain ⟨rows', hrows'⟩ := hfacts result hresult
    exact ⟨_, result, hresult, rows', hrows', rfl⟩

/-- **Content that does no harm**: every chunk, in the state that the chunks before it
leave, and the answers of the model, where it is asked. -/
def HarmlessContent (R : ReaderText) (filing : Filing)
    (provider : Option (ℕ → LlmFactExtractionService.Batch →
      List LlmFactExtractionService.ToolCall))
    (chunks : List Chunk) (rows : List CandidateRow) : Prop :=
  let context := parseDocumentContext R.chars.toCharClass R.letters filing.displayName
  ∀ institutionId periodId, referencesOf filing context = some (institutionId, periodId) →
    Admits (chunkStep R filing context institutionId periodId)
        (HarmlessChunk R filing context institutionId periodId) { rows := rows } chunks ∧
      ∀ s, readTables R filing context institutionId periodId chunks rows = .ok s → s.created = 0 →
        ∀ invoke ∈ provider,
          HarmlessAnswers R filing context institutionId periodId invoke chunks s.rows

/-- A dictionary of two metrics. -/
def twoMetrics : Dictionary where
  metrics := [⟨⟨1, "NET_PROFIT"⟩, "Net Profit".toList, true⟩,
    ⟨⟨2, "TOTAL_ASSETS"⟩, "Total Assets".toList, true⟩]
  aliases := []
  lower := List.map Char.toLower

/-- A filing whose name says everything. -/
def vakbnFiling : Filing where
  organizationId := 1
  documentId := 2
  documentVersionId := 3
  displayName := "Solo_VAKBN_31.03.2026__TR.pdf".toList
  institution _ := some 4
  period _ := some 5
  dictionary := twoMetrics

/-- The extraction raises. -/
def raises {ε α : Type} (x : Except ε α) : Bool := x.toOption.isNone

end FactExtractionService

end FinanceIntelligence
