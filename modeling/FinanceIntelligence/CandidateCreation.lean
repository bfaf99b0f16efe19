import FinanceIntelligence.NumberParsing
import FinanceIntelligence.Raising
import FinanceIntelligence.FactStore

/-!
# The creation of fact candidates

`FactCandidateService.create_candidate` (fact_candidate_service.py): a figure found
in a document becomes a row of `financial_fact_candidates`, with the number it is
read as, the number scaled by the scale of its table, and its unit.

* `normalizeScale_finite` — **scaling is exact** for every number the columns hold.
* `KeepsFigure` — what a stored row has to say about the figure it was made from.
-/

namespace FinanceIntelligence

/-- The arguments of `create_candidate`. -/
structure CandidateArgs where
  organizationId : Uuid
  institutionId : Uuid
  reportingPeriodId : Uuid
  rawLabel : List Char
  rawValue : List Char
  sourceDocumentId : Uuid
  sourceDocumentVersionId : Uuid
  rawCurrency : String := "TRY"
  rawUnit : String := "CURRENCY"
  rawScale : List Char := "ONE".toList
  detectedReportingBasis : String := "UNKNOWN"
  /-- `source_location`, as sorted JSON -/
  sourceLocation : List Char := "{}".toList
  extractionMethod : String := "PARSER_TABLE"
  metricCode : Option String := none

/-- A row of `financial_fact_candidates` as it is inserted. -/
structure CandidateRow where
  organizationId : Uuid
  institutionId : Uuid
  reportingPeriodId : Uuid
  metricDefinitionId : Option Uuid
  suggestedMetricCode : Option String
  rawLabel : List Char
  rawValue : List Char
  parsedDecimalValue : Option PyDecimal
  /-- `raw_currency`, and `normalized_currency` -/
  currency : String
  /-- `raw_unit`, and `normalized_unit` -/
  unit : String
  /-- `raw_scale`, and `normalized_scale` -/
  scale : List Char
  normalizedValue : Option PyDecimal
  detectedReportingBasis : String
  sourceDocumentId : Uuid
  sourceDocumentVersionId : Uuid
  sourceLocation : List Char
  extractionMethod : String
  confidenceScore : ℚ
  validationStatus : ValidationStatus
  reviewStatus : ReviewStatus := .pending
  warningCodes : List String
  /-- the text that `idempotency_hash` is the digest of -/
  idempotencyRaw : List Char
  valueOrigin : ValueOrigin := .sourceReported

/-- What a lookup raises. -/
inductive LookupError where
  /-- `MultipleResultsFound` -/
  | multipleRows
  /-- the pattern ends with an escape character -/
  | badPattern
  /-- a text of the database has no character zero -/
  | nulCharacter
deriving DecidableEq

/-- The tables that `create_candidate` reads and writes. -/
structure CandidateStore where
  /-- `financial_fact_candidates` -/
  rows : List CandidateRow
  /-- `metric_definitions`, by `metric_code` -/
  metricByCode : String → Option MetricDefinition
  matchMetricAlias : Uuid → List Char → Except LookupError (Option MetricDefinition)
  /-- the constraints on what the caller gives: the references to other tables, the
  lengths of texts and the evidence row -/
  accepts : CandidateArgs → Bool

/-- What `create_candidate` raises. -/
inductive CandidateError where
  /-- an exception of `match_metric_alias` -/
  | lookup (x : LookupError)
  /-- an exception of the arithmetic while the figure is read -/
  | signal (x : Decimal.Signal)
  /-- an exception of `normalize_scale` -/
  | scale (x : NormalizationService.ScaleError)
  /-- a column cannot hold a number -/
  | numericFieldOverflow
  /-- another constraint fails -/
  | constraint

/-- What a `NUMERIC(28, 6)` keeps of a decimal; an infinity and a signaling NaN
are refused. -/
def storeDecimal : PyDecimal → Option PyDecimal
  | .finite q => (Numeric.store 28 6 q).map .finite
  | .nan false => some (.nan false)
  | .nan true => none
  | .infinite _ => none

/-- The column of a value that may be missing. -/
def storeOptional : Option PyDecimal → Except CandidateError (Option PyDecimal)
  | none => .ok none
  | some v =>
    match storeDecimal v with
    | some v => .ok (some v)
    | none => .error .numericFieldOverflow

namespace CandidateCreation

open NormalizationService

variable (U : CharClass) (T : TextCase)

/-- The text that is hashed into the idempotency key. -/
def idempotencyRaw (args : CandidateArgs) : List Char :=
  (uuidText args.organizationId).toList ++ ':' :: (uuidText args.sourceDocumentVersionId).toList ++
    ':' :: strip U args.rawLabel ++ ':' :: strip U args.rawValue ++ ':' :: args.sourceLocation

/-- The candidate that is there for the same figure. -/
def existing (store : CandidateStore) (args : CandidateArgs) : Option CandidateRow :=
  store.rows.find? fun row =>
    row.organizationId == args.organizationId && row.idempotencyRaw == idempotencyRaw U args

/-- The metric of a figure: the one the caller resolved, or else that of its label, whose lookup
may raise. -/
def lookupMetric (store : CandidateStore) (args : CandidateArgs) :
    Except LookupError (Option MetricDefinition) :=
  match (args.metricCode.filter (· ≠ "")).bind store.metricByCode with
  | some metric => .ok (some metric)
  | none => store.matchMetricAlias args.organizationId args.rawLabel

/-- The metric, if one is found. -/
def metricOf (store : CandidateStore) (args : CandidateArgs) : Option MetricDefinition :=
  (lookupMetric store args).toOption.join

/-- The scaled value, if there is one. -/
def normalizedOf (parsed : Option PyDecimal) (scale : List Char) :
    Except CandidateError (Option PyDecimal) :=
  match parsed with
  | none => .ok none
  | some v => ((normalizeScale U T v scale).mapError .scale).map some

/-- The warnings about a figure. -/
def warningsOf (parsed : NumberParseResult) (metric : Option MetricDefinition) (basis : String) :
    List String :=
  parsed.warningCodes ++ (if metric.isNone then ["UNMATCHED_METRIC_ALIAS"] else []) ++
    if basis = "UNKNOWN" then ["UNKNOWN_REPORTING_BASIS"] else []

/-- The confidence in a figure. -/
def confidenceOf (parsed : NumberParseResult) (metric : Option MetricDefinition) : ℚ :=
  if metric.isSome ∧ parsed.value.isSome then
    if parsed.warningCodes = [] then 85 / 100 else 65 / 100
  else 1 / 2

/-- The row of a figure that has been read, with what its two columns keep. -/
def rowOf (args : CandidateArgs) (metric : Option MetricDefinition) (parsed : NumberParseResult)
    (parsedColumn normalizedColumn : Option PyDecimal) : CandidateRow :=
  let warnings := warningsOf parsed metric args.detectedReportingBasis
  { organizationId := args.organizationId
    institutionId := args.institutionId
    reportingPeriodId := args.reportingPeriodId
    metricDefinitionId := metric.map (·.id)
    suggestedMetricCode := metric.map (·.metricCode)
    rawLabel := args.rawLabel
    rawValue := args.rawValue
    parsedDecimalValue := parsedColumn
    currency := args.rawCurrency
    unit := if parsed.value.isSome ∧ parsed.isPercentage then "PERCENT" else args.rawUnit
    scale := args.rawScale
    normalizedValue := normalizedColumn
    detectedReportingBasis := args.detectedReportingBasis
    sourceDocumentId := args.sourceDocumentId
    sourceDocumentVersionId := args.sourceDocumentVersionId
    sourceLocation := args.sourceLocation
    extractionMethod := args.extractionMethod
    confidenceScore := confidenceOf parsed metric
    validationStatus :=
      if parsed.value.isSome ∧ metric.isSome ∧ warnings = [] then .normalized else .needsReview
    warningCodes := warnings
    idempotencyRaw := idempotencyRaw U args }

/-- The row that `create_candidate` inserts. -/
def newRow (store : CandidateStore) (args : CandidateArgs) :
    Except CandidateError CandidateRow := do
  let metric ← (lookupMetric store args).mapError .lookup
  let parsed ← (parseFinancialDecimal U T args.rawValue none).mapError .signal
  let normalized ← normalizedOf U T parsed.value args.rawScale
  -- the `INSERT`: the columns take the two numbers, or the statement fails
  let parsedColumn ← storeOptional parsed.value
  let normalizedColumn ← storeOptional normalized
  if store.accepts args then
    .ok (rowOf U args metric parsed parsedColumn normalizedColumn)
  else .error .constraint

/-- `create_candidate`: the row that is there or the new one, and the tables after it. -/
def createCandidate (store : CandidateStore) (args : CandidateArgs) :
    Except CandidateError (CandidateRow × CandidateStore) :=
  match existing U store args with
  | some row => .ok (row, store)
  | none => (newRow U T store args).map fun row =>
    (row, { store with rows := store.rows ++ [row] })

/-! ## The stored figure -/

variable {U T} {store : CandidateStore} {args : CandidateArgs} {v : ℚ} {factor : ℕ}

/-- A scale is a power of ten. -/
theorem scaleFactor_eq_pow {scale : List Char} (h : scaleFactor U T scale = some factor) :
    ∃ k ≤ 9, factor = 10 ^ k := by
  rw [scaleFactor, scaleFactors] at h
  simp only [List.lookup_cons, List.lookup_nil] at h
  split at h
  · exact ⟨0, by decide, (Option.some.inj h).symm⟩
  split at h
  · exact ⟨3, by decide, (Option.some.inj h).symm⟩
  split at h
  · exact ⟨6, by decide, (Option.some.inj h).symm⟩
  split at h
  · exact ⟨9, by decide, (Option.some.inj h).symm⟩
  · cases h

/-- **Scaling is exact** for every number that the column can hold: its digits and
the zeros of the factor fit in the precision of the arithmetic. -/
theorem normalizeScale_finite {scale : List Char} (hv : Numeric.Fits 28 6 v)
    (h : scaleFactor U T scale = some factor) :
    normalizeScale U T (.finite v) scale = .ok (.finite (v * factor)) := by
  obtain ⟨n, rfl, hn⟩ := hv
  obtain ⟨k, hk, rfl⟩ := scaleFactor_eq_pow h
  have hexact : ((n : ℚ) / 10 ^ 6 * ((10 ^ k : ℕ) : ℚ)) = n * (10 : ℚ) ^ ((k : ℤ) - 6) := by
    push_cast
    rw [zpow_sub₀ (by norm_num), zpow_natCast]
    norm_num
    ring
  have hdigits : |n| < 10 ^ Decimal.defaultContext.prec := by
    rw [Int.abs_eq_natAbs]
    exact_mod_cast hn
  have hok := PyDecimal.ofExact_of_digits hdigits (e := (k : ℤ) - 6)
    (by simp only [Decimal.Context.etiny, Decimal.defaultContext]; omega)
    (by simp only [Decimal.defaultContext]; omega)
  rw [← hexact] at hok
  simp only [normalizeScale, h, PyDecimal.mulPos, hok]
  rfl

/-- The figure is a percentage: it is printed as one, or the caller says so. -/
def IsPercentage (args : CandidateArgs) (parsed : NumberParseResult) : Prop :=
  parsed.isPercentage = true ∨ args.rawUnit = "PERCENT"

/-- **The row says what the document says**: the number that was read, and its
value, scaled if it is an amount and left alone if it is a percentage. -/
structure KeepsFigure (percentage : Prop) (v : ℚ) (factor : ℕ) (row : CandidateRow) : Prop where
  /-- the number as it was read -/
  parsed : row.parsedDecimalValue = some (.finite v)
  /-- the value of an amount -/
  amount : ¬ percentage → row.normalizedValue = some (.finite (v * factor))
  /-- the value of a percentage, and its unit -/
  percent : percentage → row.normalizedValue = some (.finite v) ∧ row.unit = "PERCENT"

/-- A number of the column, as the column takes it. -/
theorem storeOptional_eq_self {q : ℚ} (h : Numeric.Fits 28 6 q) :
    storeOptional (some (.finite q)) = .ok (some (.finite q)) := by
  simp only [storeOptional, storeDecimal, Numeric.store_eq_self_iff.mpr h, Option.map_some]

/-- A number that comes out as it went in is one of the column. -/
theorem fits_of_storeOptional {q : ℚ}
    (h : storeOptional (some (.finite q)) = .ok (some (.finite q))) : Numeric.Fits 28 6 q := by
  simp only [storeOptional, storeDecimal] at h
  split at h
  · rename_i w hw
    obtain ⟨q', hq', rfl⟩ := Option.map_eq_some_iff.mp hw
    cases h
    exact Numeric.fits_of_store hq'
  · cases h

/-- The scaled value of a number of the column is one unless it is too long. -/
theorem scaled_fits_iff (hv : Numeric.Fits 28 6 v) :
    Numeric.Fits 28 6 (v * factor) ↔ |v * factor| < 10 ^ 22 := by
  obtain ⟨n, rfl, -⟩ := hv
  have hmul : (n : ℚ) / 10 ^ 6 * factor = ((n * factor : ℤ) : ℚ) / 10 ^ 6 := by
    push_cast
    ring
  rw [hmul, Numeric.fits_multiple_iff]
  norm_num

/-- The scaled value of a number of the column is not rounded. -/
theorem scaled_of_storeOptional {w : ℚ} (hv : Numeric.Fits 28 6 v)
    (h : storeOptional (some (.finite (v * factor))) = .ok (some (.finite w))) :
    w = v * factor := by
  obtain ⟨n, rfl, -⟩ := hv
  have hmul : (n : ℚ) / 10 ^ 6 * factor = ((n * factor : ℤ) : ℚ) / 10 ^ 6 := by
    push_cast
    ring
  rw [hmul] at h ⊢
  simp only [storeOptional, storeDecimal] at h
  split at h
  · rename_i x hx
    obtain ⟨q', hq', rfl⟩ := Option.map_eq_some_iff.mp hx
    cases h
    exact Numeric.store_of_multiple hq'
  · cases h

/-- **How a row comes about**: the metric is looked up, the figure is read and scaled, and the table
takes the row and its two numbers. -/
theorem newRow_eq_ok {row : CandidateRow} : newRow U T store args = .ok row ↔
    store.accepts args = true ∧ ∃ metric parsed normalized column column',
      lookupMetric store args = .ok metric ∧ parseFinancialDecimal U T args.rawValue none = .ok parsed ∧
      normalizedOf U T parsed.value args.rawScale = .ok normalized ∧
      storeOptional parsed.value = .ok column ∧ storeOptional normalized = .ok column' ∧
      rowOf U args metric parsed column column' = row := by
  simp only [newRow, exceptBind_eq_ok, exceptMapError_eq_ok]
  constructor
  · rintro ⟨metric, hmetric, parsed, hparsed, normalized, hnormalized, column, hcolumn, column',
      hcolumn', h⟩
    split at h
    next haccepts =>
      exact ⟨haccepts, metric, parsed, normalized, column, column', hmetric, hparsed, hnormalized,
        hcolumn, hcolumn', Except.ok.inj h⟩
    next => cases h
  · rintro ⟨haccepts, metric, parsed, normalized, column, column', hmetric, hparsed, hnormalized,
      hcolumn, hcolumn', rfl⟩
    exact ⟨metric, hmetric, parsed, hparsed, normalized, hnormalized, column, hcolumn, column',
      hcolumn', if_pos haccepts⟩

/-- **A new candidate** is the new row, at the end of the table. -/
theorem createCandidate_eq_ok (hnew : existing U store args = none) {row : CandidateRow}
    {store' : CandidateStore} : createCandidate U T store args = .ok (row, store') ↔
      newRow U T store args = .ok row ∧ store' = { store with rows := store.rows ++ [row] } := by
  rw [createCandidate, hnew]
  constructor
  · intro h
    obtain ⟨row', hrow, heq⟩ := exceptMap_eq_ok.mp h
    obtain ⟨rfl, rfl⟩ := Prod.mk.inj heq
    exact ⟨hrow, rfl⟩
  · rintro ⟨hrow, rfl⟩
    exact exceptMap_eq_ok.mpr ⟨row, hrow, rfl⟩

/-- **What is stored**: a row keeps its figure exactly if the lookup of the metric does not raise,
the column can hold the number, and its scaled value for an amount; a percentage must not be
scaled. -/
theorem createCandidate_keepsFigure_iff {parsed : NumberParseResult}
    (hnew : existing U store args = none) (haccepts : store.accepts args = true)
    (hparsed : parseFinancialDecimal U T args.rawValue none = .ok parsed)
    (hv : parsed.value = some (.finite v)) (hscale : scaleFactor U T args.rawScale = some factor) :
    (∃ row store', createCandidate U T store args = .ok (row, store') ∧ row ∈ store'.rows ∧
        KeepsFigure (IsPercentage args parsed) v factor row) ↔
      (∃ metric, lookupMetric store args = .ok metric) ∧ Numeric.Fits 28 6 v ∧
        (¬ IsPercentage args parsed → |v * factor| < 10 ^ 22) ∧
        (IsPercentage args parsed → factor = 1 ∨ v = 0) := by
  constructor
  · rintro ⟨row, store', hcreate, -, hkeeps⟩
    obtain ⟨-, metric, parsed', normalized, column, column', hmetric, hparsed', hnormalized, hcolumn,
      hcolumn', rfl⟩ := newRow_eq_ok.mp ((createCandidate_eq_ok hnew).mp hcreate).1
    obtain rfl := Except.ok.inj (hparsed.symm.trans hparsed')
    obtain rfl : column = some (.finite v) := hkeeps.parsed
    rw [hv] at hcolumn
    have hfits := fits_of_storeOptional hcolumn
    rw [hv, normalizedOf, normalizeScale_finite hfits hscale] at hnormalized
    obtain rfl := Except.ok.inj hnormalized
    refine ⟨⟨metric, hmetric⟩, hfits, fun hp => ?_, fun hp => ?_⟩
    · obtain rfl : column' = some (.finite (v * factor)) := hkeeps.amount hp
      exact (scaled_fits_iff hfits).mp (fits_of_storeOptional hcolumn')
    · obtain rfl : column' = some (.finite v) := (hkeeps.percent hp).1
      have hsame : v = v * factor := scaled_of_storeOptional hfits hcolumn'
      rcases eq_or_ne v 0 with h₀ | h₀
      · exact .inr h₀
      · exact .inl (by exact_mod_cast (mul_eq_left₀ h₀).mp hsame.symm)
  · rintro ⟨⟨metric, hmetric⟩, hfits, hamount, hpercent⟩
    have hnormalized : normalizedOf U T parsed.value args.rawScale =
        .ok (some (.finite (v * factor))) := by
      rw [hv, normalizedOf, normalizeScale_finite hfits hscale]
      rfl
    have hscaled : Numeric.Fits 28 6 (v * factor) := by
      by_cases hp : IsPercentage args parsed
      · rcases hpercent hp with rfl | rfl
        · simpa using hfits
        · simpa using hfits
      · exact (scaled_fits_iff hfits).mpr (hamount hp)
    have hcolumn : storeOptional parsed.value = .ok (some (.finite v)) := by
      rw [hv]
      exact storeOptional_eq_self hfits
    refine ⟨_, _, (createCandidate_eq_ok hnew).mpr ⟨newRow_eq_ok.mpr ⟨haccepts, metric, parsed, _,
      _, _, hmetric, hparsed, hnormalized, hcolumn, storeOptional_eq_self hscaled, rfl⟩, rfl⟩, List.mem_concat_self,
      rfl, fun _ => rfl, fun hp => ⟨?_, ?_⟩⟩
    · rcases hpercent hp with rfl | rfl <;> simp [rowOf]
    · change (if parsed.value.isSome ∧ parsed.isPercentage then "PERCENT" else args.rawUnit) = _
      rcases hp with hp | hp
      · rw [if_pos ⟨by rw [hv]; rfl, hp⟩]
      · rw [hp, ite_self]

/-- Tables with no candidate and no metric. -/
def emptyStore : CandidateStore := ⟨[], fun _ => none, fun _ _ => .ok none, fun _ => true⟩

/-- A figure of a table whose header says thousands. -/
def thousandsArgs (rawValue : String) : CandidateArgs where
  organizationId := 1
  institutionId := 2
  reportingPeriodId := 3
  rawLabel := "Total".toList
  rawValue := rawValue.toList
  sourceDocumentId := 4
  sourceDocumentVersionId := 5
  rawScale := "THOUSAND".toList

/-- An amount in thousands keeps its figure. -/
theorem createCandidate_keepsFigure_amount :
    ∃ row store', createCandidate .ascii .ascii emptyStore (thousandsArgs "1.234,56") =
      .ok (row, store') ∧ row ∈ store'.rows ∧
      KeepsFigure (IsPercentage (thousandsArgs "1.234,56") ⟨some (.finite (123456 / 100)), false, []⟩)
        (123456 / 100) 1000 row :=
  (createCandidate_keepsFigure_iff rfl rfl (by decide +kernel) rfl (by decide +kernel)).mpr
    ⟨⟨none, rfl⟩, ⟨1234560000, by norm_num, by norm_num⟩, fun _ => by norm_num [abs_lt], fun h => by
      simp [IsPercentage, thousandsArgs] at h⟩

/-- Twelve and a half percent in a table in thousands is stored as 12500 percent. -/
theorem createCandidate_scales_percentage :
    parseFinancialDecimal .ascii .ascii "%12,5".toList none =
        .ok ⟨some (.finite (25 / 2)), true, []⟩ ∧
      ¬ ∃ row store', createCandidate .ascii .ascii emptyStore (thousandsArgs "%12,5") =
        .ok (row, store') ∧ row ∈ store'.rows ∧
        KeepsFigure (IsPercentage (thousandsArgs "%12,5") ⟨some (.finite (25 / 2)), true, []⟩)
          (25 / 2) 1000 row := by
  have hparsed : parseFinancialDecimal .ascii .ascii "%12,5".toList none =
      .ok ⟨some (.finite (25 / 2)), true, []⟩ := by decide +kernel
  refine ⟨hparsed, ?_⟩
  rintro ⟨row, store', hcreate, -, hkeeps⟩
  obtain ⟨-, metric, parsed, normalized, column, column', hmetric, hparsed', hnormalized, hcolumn₀,
      hcolumn', rfl⟩ :=
    newRow_eq_ok.mp ((createCandidate_eq_ok rfl).mp hcreate).1
  obtain rfl := Except.ok.inj (hparsed.symm.trans hparsed')
  have hfits : Numeric.Fits 28 6 (25 / 2 : ℚ) := ⟨12500000, by norm_num, by norm_num⟩
  rw [normalizedOf, normalizeScale_finite hfits (show _ = some 1000 by decide +kernel)] at hnormalized
  obtain rfl := Except.ok.inj hnormalized
  obtain rfl : column' = some (.finite (25 / 2)) := (hkeeps.percent (.inl rfl)).1
  have hsame := scaled_of_storeOptional hfits hcolumn'
  norm_num at hsame

end CandidateCreation

end FinanceIntelligence
