import FinanceIntelligence.CandidateCreation
import FinanceIntelligence.LlmFactExtraction

/-!
# From chunks to candidates

`FactExtractionService.extract_candidates` (fact_extraction_service.py): the rows of
the tables of a filing whose label is a known metric become candidates; where there is
none, the figures that a model reads do.

A label is looked up as the pattern of an `ILIKE`, among the aliases of the tenant and
then among the codes and names of the metrics, and a lookup that finds two rows raises.
So does a text that a column cannot hold. `extractCandidates_isOk_iff` says **which
content a filing may have** so that its extraction comes to its end.
-/

namespace FinanceIntelligence

/-! ## `ILIKE` -/

/-- The outcome of a comparison with a pattern. -/
inductive LikeResult where
  /-- the text matches -/
  | yes
  /-- it does not, but a later part of it may -/
  | no
  /-- it does not, and no later part does -/
  | abort
  /-- `LIKE pattern must not end with escape character` -/
  | badPattern
deriving DecidableEq

/-- What stands at the first place where a text may continue after `%`. -/
def scanText (matches? : List Char → LikeResult) (first : Char) : List Char → LikeResult
  | [] => .abort
  | c :: t =>
    if c = first then
      match matches? (c :: t) with
      | .no => scanText matches? first t
      | r => r
    else scanText matches? first t

/-- The wildcards after a `%`, each `_` with one character of the text. -/
def skipWildcards : List Char → List Char → Option (List Char × List Char)
  | '%' :: p, t => skipWildcards p t
  | '_' :: p, _ :: t => skipWildcards p t
  | '_' :: _, [] => none
  | p, t => some (p, t)

/-- `LIKE`, as the database compares; the number bounds the length of the pattern. -/
def likeMatch : ℕ → List Char → List Char → LikeResult
  | _, [], [] => .yes
  | _, [], _ :: _ => .no
  | _, p, [] => if p.all (· == '%') then .yes else .abort
  | 0, _, _ => .no
  | n + 1, '%' :: p, t =>
    match skipWildcards p t with
    | none => .abort
    | some ([], _) => .yes
    | some (['\\'], _) => .badPattern
    | some ('\\' :: c :: p, t) => scanText (likeMatch n ('\\' :: c :: p)) c t
    | some (c :: p, t) => scanText (likeMatch n (c :: p)) c t
  | n + 1, '_' :: p, _ :: t => likeMatch n p t
  | _ + 1, ['\\'], _ => .badPattern
  | n + 1, '\\' :: d :: p, c :: t => if d = c then likeMatch n p t else .no
  | n + 1, d :: p, c :: t => if d = c then likeMatch n p t else .no

/-! ## The dictionary -/

/-- A row of `metric_definitions`. -/
structure MetricRow extends MetricDefinition where
  canonicalName : List Char
  /-- `status == "ACTIVE"` -/
  active : Bool := true

/-- A row of `metric_aliases`. -/
structure MetricAlias where
  organizationId : Uuid
  metricDefinitionId : Uuid
  aliasPattern : List Char

/-- The dictionary of metrics. -/
structure Dictionary where
  /-- `metric_definitions` -/
  metrics : List MetricRow
  /-- `metric_aliases` -/
  aliases : List MetricAlias
  /-- `lower` of the database -/
  lower : List Char → List Char

/-- `scalar_one_or_none` of the rows that match. -/
def selectOne {α : Type} (matches? : α → LikeResult) (rows : List α) :
    Except LookupError (Option α) :=
  if rows.any fun row => matches? row == .badPattern then .error .badPattern
  else
    match rows.filter fun row => matches? row == .yes with
    | [] => .ok none
    | [row] => .ok (some row)
    | _ :: _ :: _ => .error .multipleRows

namespace Dictionary

variable (U : CharClass) (T : TextCase) (d : Dictionary)

/-- `text ILIKE pattern`. -/
def ilike (text pattern : List Char) : LikeResult :=
  likeMatch (d.lower pattern).length (d.lower pattern) (d.lower text)

/-- The code or the name of a metric matches. -/
def metricMatches (pattern : List Char) (row : MetricRow) : LikeResult :=
  match d.ilike row.metricCode.toList pattern with
  | .yes => .yes
  | .badPattern => .badPattern
  | _ => d.ilike row.canonicalName pattern

/-- `match_metric_alias`. -/
def matchMetricAlias (organizationId : Uuid) (rawLabel : List Char) :
    Except LookupError (Option MetricRow) :=
  let cleanedLabel := T.lower (strip U rawLabel)
  if Char.ofNat 0 ∈ cleanedLabel then .error .nulCharacter
  else do
    let own := d.aliases.filter fun row => row.organizationId == organizationId
    match ← selectOne (fun row => d.ilike row.aliasPattern cleanedLabel) own with
    | some row => pure (d.metrics.find? fun m => m.id == row.metricDefinitionId)
    | none => selectOne (d.metricMatches cleanedLabel) d.metrics

/-- The codes that a model may use. -/
def activeCodes : List (List Char) := (d.metrics.filter (·.active)).map (·.metricCode.toList)

/-- The definition with a code. -/
def metricByCode (code : String) : Option MetricDefinition :=
  (d.metrics.find? fun m => m.metricCode == code).map (·.toMetricDefinition)

end Dictionary

/-- A text fits a column of so many characters. -/
def fitsText (n : ℕ) (s : List Char) : Bool := s.length ≤ n && !s.contains (Char.ofNat 0)

/-- The texts of a candidate fit the columns of `financial_fact_candidates`. -/
def columnsAccept (args : CandidateArgs) : Bool :=
  fitsText 255 args.rawLabel && fitsText 255 args.rawValue &&
    fitsText 10 args.rawCurrency.toList && fitsText 50 args.rawScale

namespace FactExtractionService

variable (R : ReaderText)

/-! ## The rows of a table -/

/-- The first cell that is a number. -/
def firstNumericCell : List (List Char) → Except Decimal.Signal (Option (List Char))
  | [] => .ok none
  | cell :: cells =>
    if cell = [] then firstNumericCell cells
    else do
      let parsed ← NormalizationService.parseFinancialDecimal R.chars.toCharClass R.letters cell none
      if parsed.value.isSome then pure (some cell) else firstNumericCell cells

/-- The label of a line and its first number. -/
def tableRow (line : List Char) : Except Decimal.Signal (Option (List Char × List Char)) :=
  match (line.splitOn '|').map (strip R.chars.toCharClass) with
  | label :: cell :: cells =>
    if label = [] then .ok none
    else (firstNumericCell R (cell :: cells)).map (·.map fun value => (label, value))
  | _ => .ok none

/-- `iter_table_rows`. -/
def iterTableRows (chunkContent : List Char) :
    Except Decimal.Signal (List (List Char × List Char)) :=
  ((chunkContent.splitOn '\n').mapM (tableRow R)).map (·.filterMap id)

/-! ## `extract_candidates` -/

/-- A chunk of a parsed document. -/
structure Chunk where
  chunkType : String
  content : List Char
  /-- `_evidence_location` of a value, as sorted JSON -/
  location : List Char → List Char := fun _ => "{}".toList

/-- `MAX_CANDIDATES_PER_VERSION`. -/
def maxCandidatesPerVersion : ℕ := 200

/-- A document that is read, and what the worker knows about it. -/
structure Filing where
  organizationId : Uuid
  documentId : Uuid
  documentVersionId : Uuid
  displayName : List Char
  /-- `find_institution`, by code -/
  institution : List Char → Option Uuid
  /-- `find_reporting_period`, by the end of the period -/
  period : PyDate → Option Uuid
  dictionary : Dictionary

/-- What `extract_candidates` raises. -/
inductive ExtractionError where
  /-- while a cell is read -/
  | signal (x : Decimal.Signal)
  /-- while a label is looked up -/
  | lookup (x : LookupError)
  /-- while a candidate is created -/
  | candidate (x : CandidateError)
  /-- while the answer of the model is read -/
  | read (x : ReadError)

/-- How far the extraction is. -/
structure Progress where
  /-- `financial_fact_candidates` -/
  rows : List CandidateRow
  created : ℕ := 0
  rowsConsidered : ℕ := 0
  matchedLabels : ℕ := 0
  /-- the ceiling was met -/
  full : Bool := false

/-- `ExtractionSummary`. -/
structure ExtractionSummary where
  candidatesCreated : ℕ
  rowsConsidered : ℕ
  matchedLabels : ℕ
  context : DocumentContext
  llmBatchesSent : ℕ := 0
  llmFactsProposed : ℕ := 0
  llmFactsRejected : ℕ := 0
  llmCandidatesCreated : ℕ := 0

/-- The tables as `create_candidate` sees them. -/
def candidateStore (d : Dictionary) (rows : List CandidateRow) : CandidateStore where
  rows := rows
  metricByCode := d.metricByCode
  matchMetricAlias org label :=
    (d.matchMetricAlias R.chars.toCharClass R.letters org label).map
      (·.map MetricRow.toMetricDefinition)
  accepts := columnsAccept

/-- `create_candidate` looks the label up itself: the figure is new, and the caller has
not resolved the metric. -/
def looksUpLabel (d : Dictionary) (rows : List CandidateRow) (args : CandidateArgs) : Bool :=
  (CandidateCreation.existing R.chars.toCharClass (candidateStore R d rows) args).isNone &&
    ((args.metricCode.filter (· ≠ "")).bind d.metricByCode).isNone

/-- `create_candidate`: the rows after it. -/
def recordCandidate (d : Dictionary) (rows : List CandidateRow) (args : CandidateArgs) :
    Except ExtractionError (List CandidateRow) :=
  ((CandidateCreation.createCandidate R.chars.toCharClass R.letters (candidateStore R d rows)
    args).mapError .candidate).map fun x => x.2.rows

section Extraction

variable (filing : Filing) (context : DocumentContext) (institutionId reportingPeriodId : Uuid)

/-- The arguments for a row of a table. -/
def tableArgs (chunk : Chunk) (row : List Char × List Char) : CandidateArgs where
  organizationId := filing.organizationId
  institutionId := institutionId
  reportingPeriodId := reportingPeriodId
  rawLabel := row.1
  rawValue := row.2
  sourceDocumentId := filing.documentId
  sourceDocumentVersionId := filing.documentVersionId
  detectedReportingBasis := context.reportingBasis.text
  sourceLocation := chunk.location row.2
  extractionMethod := "PARSER_TABLE"

/-- One row of a table. -/
def tableStep (chunk : Chunk) (s : Progress) (row : List Char × List Char) :
    Except ExtractionError Progress :=
  if s.full then .ok s
  else if maxCandidatesPerVersion ≤ s.created then .ok { s with full := true }
  else do
    let s := { s with rowsConsidered := s.rowsConsidered + 1 }
    match ← (filing.dictionary.matchMetricAlias R.chars.toCharClass R.letters
        filing.organizationId row.1).mapError ExtractionError.lookup with
    | none => pure s
    | some _ => do
      let rows ← recordCandidate R filing.dictionary s.rows
        (tableArgs filing context institutionId reportingPeriodId chunk row)
      pure { s with
        rows := rows
        created := s.created + 1
        matchedLabels := s.matchedLabels + 1 }

/-- One chunk. -/
def chunkStep (s : Progress) (chunk : Chunk) : Except ExtractionError Progress :=
  if s.full ∨ chunk.chunkType ≠ "TABLE" then .ok s
  else do
    let rows ← (iterTableRows R chunk.content).mapError ExtractionError.signal
    rows.foldlM (tableStep R filing context institutionId reportingPeriodId chunk) s

/-- The arguments for a figure that the model reads. -/
def factArgs (chunks : List Chunk) (fact : LlmFactExtractionService.ExtractedFact) :
    CandidateArgs where
  organizationId := filing.organizationId
  institutionId := institutionId
  reportingPeriodId := reportingPeriodId
  rawLabel := fact.rawLabel
  rawValue := fact.rawValue
  sourceDocumentId := filing.documentId
  sourceDocumentVersionId := filing.documentVersionId
  rawCurrency := (fact.currency.map String.ofList).getD "TRY"
  rawScale := fact.scale.getD "ONE".toList
  detectedReportingBasis := context.reportingBasis.text
  sourceLocation :=
    (chunks[fact.chunkIndex]?.map fun chunk => chunk.location fact.rawValue).getD "{}".toList
  extractionMethod := "LLM_ASSISTED"
  metricCode := some (String.ofList fact.metricCode)

/-- One figure that the model reads. -/
def factStep (chunks : List Chunk) (rows : List CandidateRow)
    (fact : LlmFactExtractionService.ExtractedFact) : Except ExtractionError (List CandidateRow) :=
  recordCandidate R filing.dictionary rows
    (factArgs filing context institutionId reportingPeriodId chunks fact)

/-- The pass over the tables. -/
def readTables (chunks : List Chunk) (rows : List CandidateRow) : Except ExtractionError Progress :=
  chunks.foldlM (chunkStep R filing context institutionId reportingPeriodId) { rows := rows }

/-- The pass of the model; of the figures that it reads, the first are taken. -/
def readWithModel (invoke : ℕ → LlmFactExtractionService.Batch →
      List LlmFactExtractionService.ToolCall) (chunks : List Chunk) (rows : List CandidateRow) :
    Except ExtractionError (LlmFactExtractionService.LlmExtractionResult × List CandidateRow) := do
  let result ← (LlmFactExtractionService.extract R invoke (chunks.map (·.content))
    filing.dictionary.activeCodes context.periodEnd).mapError ExtractionError.read
  let rows ← (result.facts.take maxCandidatesPerVersion).foldlM
    (factStep R filing context institutionId reportingPeriodId chunks) rows
  pure (result, rows)

end Extraction

/-- The summary of the pass over the tables. -/
def Progress.summary (s : Progress) (context : DocumentContext) : ExtractionSummary :=
  ⟨s.created, s.rowsConsidered, s.matchedLabels, context, 0, 0, 0, 0⟩

/-- The institution and the period of a filing, if its name says them and both are known. -/
def referencesOf (filing : Filing) (context : DocumentContext) : Option (Uuid × Uuid) :=
  context.institutionCode.bind fun code => context.periodEnd.bind fun date =>
    (filing.institution code).bind fun institutionId =>
      (filing.period date).map fun periodId => (institutionId, periodId)

/-- `extract_candidates`: the summary, and the table after it. -/
def extractCandidates (filing : Filing)
    (provider : Option (ℕ → LlmFactExtractionService.Batch → List LlmFactExtractionService.ToolCall))
    (chunks : List Chunk) (rows : List CandidateRow) :
    Except ExtractionError (ExtractionSummary × List CandidateRow) :=
  let context := parseDocumentContext R.chars.toCharClass R.letters filing.displayName
  match referencesOf filing context with
  | none => .ok (⟨0, 0, 0, context, 0, 0, 0, 0⟩, rows)
  | some (institutionId, periodId) => do
    let s ← readTables R filing context institutionId periodId chunks rows
    match provider with
    | none => pure (s.summary context, s.rows)
    | some invoke =>
      if 0 < s.created then pure (s.summary context, s.rows)
      else do
        let (result, rows) ← readWithModel R filing context institutionId periodId invoke chunks s.rows
        let llmCreated := min result.facts.length maxCandidatesPerVersion
        pure ({ s.summary context with
          candidatesCreated := s.created + llmCreated
          llmBatchesSent := result.batchesSent
          llmFactsProposed := result.factsProposed
          llmFactsRejected := result.factsRejectedUnverified + result.factsRejectedUnknownMetric +
            result.factsRejectedPeriodMismatch
          llmCandidatesCreated := llmCreated }, rows)

end FactExtractionService

end FinanceIntelligence
