import FinanceIntelligence.RequestPlan
import FinanceIntelligence.QualityGate

/-!
# The request normalizer

`AnalysisRequestNormalizer.normalize_request`: what a prompt asks for, in terms of
the tenant's institutions and periods and of the metric catalog. What the model
extracts from the prompt is a parameter, and so is how a text is read as a
period or a metric.

The loops compare names by containment, after both sides are stripped and in lower case. What
becomes of blank texts there is the subject of `FailingClosed`.
-/

namespace FinanceIntelligence

/-- `institutions`. -/
structure Institution where
  id : Uuid
  canonicalName : String
  displayName : String
  regulatoryIdentifier : Option String := none
  /-- `aliases`, those that are strings -/
  aliases : List String := []
deriving DecidableEq, Repr

/-- `reporting_periods`. -/
structure ReportingPeriod where
  id : Uuid
  fiscalYear : ℕ
  quarter : Option ℕ := none
  label : String
  comparisonKey : String
deriving DecidableEq, Repr

/-- `ExtractedRequestEntities`, what the fast model answers. -/
structure ExtractedRequestEntities where
  intent : String := "CROSS_INSTITUTION_COMPARISON"
  requestedInstitutions : List String := []
  requestedPeriods : List String := []
  requestedSemanticMeasures : List String := []
  reportingBasis : String := "SOLO"
deriving DecidableEq, Repr

/-- How texts are read. -/
structure TextReading where
  /-- `str.lower` -/
  lower : String → String
  /-- `str.upper` -/
  upper : String → String
  /-- `str.strip` -/
  strip : String → String
  /-- `resolve_metric_codes`, of a prompt and the codes and names of the catalog -/
  resolveMetricCodes : String → List (String × String) → List String
  textMatchesPeriod : String → ReportingPeriod → Bool

/-- What the normalizer reads of the tenant. -/
structure TenantRecords where
  institutions : List Institution
  /-- its reporting periods -/
  periods : List ReportingPeriod
  /-- the active metric definitions: `metric_code` and `canonical_name` -/
  catalog : List (String × String)

namespace AnalysisRequestNormalizer

variable (T : TextReading)

/-- `part in whole`, of strings. -/
def within (part whole : String) : Bool := isPartOf part.toList whole.toList

/-- The names of an institution. -/
def names (inst : Institution) : List String :=
  [T.lower inst.canonicalName, T.lower inst.displayName,
    (inst.regulatoryIdentifier.map T.lower).getD ""] ++ inst.aliases.map T.lower

/-- The extracted text names the institution. -/
def namesInstitution (requested : String) (inst : Institution) : Bool :=
  let cleanName := T.lower (T.strip requested)
  (names T inst).any fun n => n != "" && (within cleanName n || within n cleanName)

/-- The prompt contains the name of the institution. -/
def promptNamesInstitution (prompt : String) (inst : Institution) : Bool :=
  [T.lower inst.canonicalName, T.lower inst.displayName].any fun n =>
    n != "" && within n (T.lower prompt)

/-- The extracted text names the period. -/
def namesPeriod (requested : String) (per : ReportingPeriod) : Bool :=
  let cleanPer := T.lower (T.strip requested)
  [T.lower per.label, T.lower per.comparisonKey].any fun p =>
    within cleanPer p || within p cleanPer

/-- The prompt contains the label or the key of the period. -/
def promptNamesPeriod (prompt : String) (per : ReportingPeriod) : Bool :=
  [T.lower per.label, T.lower per.comparisonKey].any fun p =>
    p != "" && within p (T.lower prompt)

/-- The rows that a text matches, after those matched already. -/
def addMatches {α : Type} [DecidableEq α] (test : String → α → Bool) (rows matched : List α)
    (text : String) : List α :=
  rows.foldl (fun matched row =>
    if test text row && !matched.contains row then matched ++ [row] else matched) matched

/-- `[]`, or else: the second matching is for want of the first. -/
def orElse {α : Type} (matched : List α) (other : List α) : List α :=
  if matched = [] then other else matched

/-- The first matching that finds something. -/
def firstNonempty {α : Type} (matchings : List (List α)) : List α :=
  (matchings.find? (· ≠ [])).getD []

/-- The institutions of the request. -/
def matchInstitutions (extracted : ExtractedRequestEntities) (prompt : String)
    (rows : List Institution) : List Institution :=
  orElse (extracted.requestedInstitutions.foldl (addMatches (namesInstitution T) rows) [])
    (addMatches (promptNamesInstitution T) rows [] prompt)

/-- The periods of the request. -/
def matchPeriods (extracted : ExtractedRequestEntities) (prompt : String)
    (rows : List ReportingPeriod) : List ReportingPeriod :=
  orElse (extracted.requestedPeriods.foldl (addMatches (namesPeriod T) rows) []) <|
    orElse (addMatches (promptNamesPeriod T) rows [] prompt) <|
      firstNonempty ((extracted.requestedPeriods ++ [prompt]).map
        (addMatches T.textMatchesPeriod rows []))

/-- `intent_val`. -/
def intentOf : String → Intent
  | "SINGLE_PERIOD_ANALYSIS" => .singlePeriodAnalysis
  | "MULTI_PERIOD_TREND" => .multiPeriodTrend
  | "RATIO_CALCULATION" => .ratioCalculation
  | _ => .crossInstitutionComparison

/-- The requested basis: solo unless the text says otherwise. -/
def basisOf (basis : String) : RequestedBasis :=
  if T.upper basis = "CONSOLIDATED" then .consolidated else .solo

/-- The requested measures: those extracted, else those the prompt names, else
total assets. -/
def measuresOf (extracted : ExtractedRequestEntities) (prompt : String)
    (catalog : List (String × String)) : List String :=
  orElse extracted.requestedSemanticMeasures
    (orElse (T.resolveMetricCodes prompt catalog) ["TOTAL_ASSETS"])

/-- `_heuristic_fallback_extraction`: it claims nothing. -/
def heuristicFallbackExtraction : ExtractedRequestEntities where
  intent := "SINGLE_PERIOD_ANALYSIS"

/-- The question for an empty prompt. -/
def emptyPrompt : NormalizationOutcome where
  needsClarification := true
  clarificationCode := some "UNSUPPORTED_REQUEST_SCOPE"
  clarificationPromptKey := some "EMPTY_PROMPT"
  clarificationQuestion := some
    "Analiz istemi boş olamaz. Lütfen analiz etmek istediğiniz finansal istemi giriniz."
  allowedResponseSchema := .acknowledged

/-- The question for an institution. -/
def noTenantInstitutionFound (rows : List Institution) : NormalizationOutcome where
  needsClarification := true
  clarificationCode := some "INSTITUTION_REQUIRED"
  clarificationPromptKey := some "NO_TENANT_INSTITUTION_FOUND"
  clarificationQuestion := some
    "İstemi karşılayacak aktif kurum bulunamadı. Lütfen analiz edilecek kurumu seçiniz."
  allowedResponseSchema := .institutionId (rows.map (·.id))

/-- The question for a period. -/
def noTenantPeriodFound (rows : List ReportingPeriod) : NormalizationOutcome where
  needsClarification := true
  clarificationCode := some "REPORTING_PERIOD_REQUIRED"
  clarificationPromptKey := some "NO_TENANT_PERIOD_FOUND"
  clarificationQuestion := some
    "İstemi karşılayacak raporlama dönemi bulunamadı. Lütfen analiz dönemini seçiniz."
  allowedResponseSchema := .periodId (rows.map (·.id))

/-- `normalize_request`; `answer` is what the fast model extracted, `none` if
its answer could not be had or parsed. -/
def normalizeRequest (answer : Option ExtractedRequestEntities) (prompt : String)
    (tenant : TenantRecords) : NormalizationOutcome :=
  if prompt = "" ∨ T.strip prompt = "" then
    emptyPrompt
  else
    let extracted := answer.getD heuristicFallbackExtraction
    let matchedInstitutions := matchInstitutions T extracted prompt tenant.institutions
    let matchedPeriods := matchPeriods T extracted prompt tenant.periods
    if matchedInstitutions = [] then
      noTenantInstitutionFound tenant.institutions
    else if matchedPeriods = [] then
      noTenantPeriodFound tenant.periods
    else
      { normalizedRequest := some
          { intent := intentOf extracted.intent
            requestedInstitutions := matchedInstitutions.map (·.canonicalName)
            requestedPeriods := matchedPeriods.map (·.comparisonKey)
            requestedSemanticMeasures := measuresOf T extracted prompt tenant.catalog
            reportingBasis := basisOf T extracted.reportingBasis }
        matchedInstitutionIds := matchedInstitutions.map (·.id)
        matchedPeriodIds := matchedPeriods.map (·.id) }

/-! ## What an answer is -/

variable {T} {answer : Option ExtractedRequestEntities} {prompt : String} {tenant : TenantRecords}

@[simp] theorem orElse_eq_nil {α : Type} {matched other : List α} :
    orElse matched other = [] ↔ matched = [] ∧ other = [] := by
  rw [orElse]
  split <;> simp_all

/-- Matchings one after the other. -/
theorem orElse_assoc {α : Type} {a b c : List α} : orElse a (orElse b c) = orElse (orElse a b) c := by
  by_cases ha : a = []
  · simp only [orElse, if_pos ha]
  · simp only [orElse, if_neg ha]

/-- A request is never empty: a normalized one has institutions, periods and
measures. -/
structure Answered (outcome : NormalizationOutcome) (req : NormalizedRequest) : Prop where
  /-- no question is asked -/
  needsClarification : outcome.needsClarification = false
  request : outcome.normalizedRequest = some req
  /-- some institution was matched -/
  institutions : outcome.matchedInstitutionIds ≠ []
  /-- some period was matched -/
  periods : outcome.matchedPeriodIds ≠ []
  /-- some measure is requested -/
  measures : req.requestedSemanticMeasures ≠ []

theorem normalizeRequest_answered {req : NormalizedRequest}
    (h : (normalizeRequest T answer prompt tenant).normalizedRequest = some req) :
    Answered (normalizeRequest T answer prompt tenant) req := by
  rw [normalizeRequest] at h ⊢
  split at h
  · cases h
  · rename_i hprompt
    rw [if_neg hprompt]
    dsimp only at h ⊢
    split at h
    · cases h
    · rename_i hinst
      rw [if_neg hinst]
      split at h
      · cases h
      · rename_i hper
        rw [if_neg hper]
        obtain rfl := Option.some.inj h
        exact ⟨rfl, rfl, by simpa using hinst, by simpa using hper, by simp [measuresOf]⟩

end AnalysisRequestNormalizer

end FinanceIntelligence
