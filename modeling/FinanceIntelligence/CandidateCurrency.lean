import FinanceIntelligence.ExtractionRuns
import FinanceIntelligence.FactReview
import FinanceIntelligence.FigureGrammar

/-!
# The currency of a candidate

`NormalizationService.normalize_currency` reconciles the spellings of a currency, but no
code calls it: `create_candidate` stores what the document prints as the normalized
currency, an approval copies it into the fact, and a comparison asks for the code.

* `SpeaksCode` — **a row that a comparison can use**: its currency is the code of the
  spelling, so that no fact made of it is a `CURRENCY_MISMATCH`.
* `extractCandidates_speaksCode` — what an extraction leaves is such if the model spells
  every currency that it reports as the code.
-/

namespace FinanceIntelligence

namespace NormalizationService

/-- `CURRENCY_ALIASES`. -/
def currencyAliases : List (List Char × List Char) :=
  [("TL", "TRY"), ("₺", "TRY"), ("TRL", "TRY"), ("$", "USD"), ("US$", "USD"), ("USD$", "USD"),
    ("€", "EUR"), ("£", "GBP")].map fun (written, code) => (written.toList, code.toList)

/-- `VALID_CURRENCIES`. -/
def validCurrencies : List (List Char) :=
  ["TRY", "USD", "EUR", "GBP", "CHF", "JPY"].map String.toList

/-- `normalize_currency`; `none` for `UNSUPPORTED_CURRENCY`. -/
def normalizeCurrency (U : CharClass) (T : TextCase) (currency : List Char) : Option (List Char) :=
  let curUpper := if currency = [] then [] else strip U (T.upper currency)
  let code := (currencyAliases.lookup curUpper).getD curUpper
  if code ∈ validCurrencies then some code else none

end NormalizationService

/-- `str.upper` leaves capital letters alone. -/
def TextCase.KeepsCapitals (T : TextCase) : Prop :=
  ∀ s : List Char, (∀ c ∈ s, c.isUpper = true) → T.upper s = s

theorem TextCase.keepsCapitals_ascii : TextCase.ascii.KeepsCapitals := by
  intro s hs
  refine (List.map_congr_left fun c hc => dif_neg fun hlower => ?_).trans (List.map_id' s)
  have hle : c.val.toNat ≤ 90 := (toNat_of_isUpper (hs c hc)).2
  have hge : 97 ≤ c.val.toNat := UInt32.le_iff_toNat_le.mp hlower.1
  omega

/-- `execute_comparison` refuses a fact of this currency. -/
def currencyMismatch (fact : FinancialFact) (currency : List Char) : Bool :=
  fact.unit != "PERCENT" && fact.unit != "RATIO" && fact.currency.toList != currency

/-- The fact is made of the row, by an approval. -/
def MadeOf (row : CandidateRow) (fact : FinancialFact) : Prop :=
  ∃ candidate metric basis value user id supersedes now created,
    candidate.normalizedCurrency = row.currency ∧ candidate.normalizedUnit = row.unit ∧
      fact = FinancialFactService.newFact candidate metric basis value user id supersedes now created

/-- **A row that a comparison can use**: its currency is the code of its spelling, and
no fact made of it is refused in that currency. -/
def SpeaksCode (U : CharClass) (T : TextCase) (row : CandidateRow) : Prop :=
  ∀ code, NormalizationService.normalizeCurrency U T row.currency.toList = some code →
    row.currency.toList = code ∧ ∀ fact, MadeOf row fact → currencyMismatch fact code = false

/-- A currency that is spelled as its code, or is none that is known. -/
def SpelledAsCode (U : CharClass) (T : TextCase) (currency : List Char) : Prop :=
  ∀ code, NormalizationService.normalizeCurrency U T currency = some code → currency = code

section Currency

variable {U : CharClass} {T : TextCase} {row : CandidateRow} {store store' : CandidateStore}
  {args : CandidateArgs}

theorem speaksCode_iff : SpeaksCode U T row ↔ SpelledAsCode U T row.currency.toList := by
  refine ⟨fun h code hcode => (h code hcode).1, fun h code hcode => ⟨h code hcode, ?_⟩⟩
  rintro fact ⟨candidate, metric, basis, value, user, id, supersedes, now, created, hcurrency, -,
    rfl⟩
  simp [currencyMismatch, FinancialFactService.newFact, hcurrency, h code hcode]

/-- **A new row keeps the currency** as the caller gives it. -/
theorem createCandidate_currency (hnew : CandidateCreation.existing U store args = none)
    (h : CandidateCreation.createCandidate U T store args = .ok (row, store')) :
    store'.rows = store.rows ++ [row] ∧ row.currency = args.rawCurrency := by
  obtain ⟨hrow, rfl⟩ := (CandidateCreation.createCandidate_eq_ok hnew).mp h
  obtain ⟨-, _, _, _, _, _, -, -, -, -, -, rfl⟩ := CandidateCreation.newRow_eq_ok.mp hrow
  exact ⟨rfl, rfl⟩

/-- A figure that is there adds no row. -/
theorem createCandidate_rows_of_existing
    (hold : CandidateCreation.existing U store args ≠ none)
    (h : CandidateCreation.createCandidate U T store args = .ok (row, store')) :
    store'.rows = store.rows := by
  obtain ⟨old, hold⟩ := Option.ne_none_iff_exists'.mp hold
  rw [CandidateCreation.createCandidate, hold] at h
  cases h
  rfl

/-- A table is read in lira. -/
theorem spelledAsCode_try (hU : U.KnowsAscii) (hT : T.KeepsCapitals) :
    SpelledAsCode U T "TRY".toList := by
  have hupper : T.upper "TRY".toList = "TRY".toList := hT _ (by simp)
  have hstrip : strip U "TRY".toList = "TRY".toList := by
    refine strip_of_forall fun c hc => ?_
    rcases (by simpa using hc : c = 'T' ∨ c = 'R' ∨ c = 'Y') with rfl | rfl | rfl <;>
      exact hU.space_eq _ (by decide)
  intro code hcode
  have hne : ¬ "TRY".toList = [] := by decide
  simp only [NormalizationService.normalizeCurrency, if_neg hne, hupper, hstrip] at hcode
  have hvalue : (if (NormalizationService.currencyAliases.lookup "TRY".toList).getD "TRY".toList ∈
      NormalizationService.validCurrencies then
      some ((NormalizationService.currencyAliases.lookup "TRY".toList).getD "TRY".toList)
      else none) = some "TRY".toList := by decide
  exact (Option.some.inj (hcode.symm.trans hvalue)).symm

end Currency

namespace FactExtractionService

variable {R : ReaderText} {filing : Filing} {context : DocumentContext}
  {institutionId periodId : Uuid} {rows rows' : List CandidateRow}

/-- Every row can be used by a comparison. -/
def AllSpeakCode (R : ReaderText) (rows : List CandidateRow) : Prop :=
  ∀ row ∈ rows, SpeaksCode R.chars.toCharClass R.letters row

/-- A recorded candidate, if its currency is spelled as the code. -/
theorem recordCandidate_speaksCode {d : Dictionary} {args : CandidateArgs}
    (hargs : SpelledAsCode R.chars.toCharClass R.letters args.rawCurrency.toList)
    (hrows : AllSpeakCode R rows) (h : recordCandidate R d rows args = .ok rows') :
    AllSpeakCode R rows' := by
  obtain ⟨row, store, hcreate, rfl⟩ := recordCandidate_eq_ok.mp h
  by_cases hnew : CandidateCreation.existing R.chars.toCharClass (candidateStore R d rows) args = none
  swap
  · rw [createCandidate_rows_of_existing hnew hcreate]
    exact hrows
  · obtain ⟨happend, hcurrency⟩ := createCandidate_currency hnew hcreate
    rw [happend]
    intro other hother
    rcases List.mem_append.mp hother with hother | hother
    · exact hrows other hother
    · obtain rfl := List.mem_singleton.mp hother
      rw [speaksCode_iff, hcurrency]
      exact hargs

theorem tableStep_speaksCode (hU : R.chars.toCharClass.KnowsAscii) (hT : R.letters.KeepsCapitals)
    {chunk : Chunk} {s s' : Progress} {row : List Char × List Char} (hs : AllSpeakCode R s.rows)
    (h : tableStep R filing context institutionId periodId chunk s row = .ok s') :
    AllSpeakCode R s'.rows := by
  rw [tableStep] at h
  split at h
  · cases h
    exact hs
  split at h
  · cases h
    exact hs
  obtain ⟨o, -, h⟩ := exceptBind_eq_ok.mp h
  cases o with
  | none =>
    cases h
    exact hs
  | some m =>
    obtain ⟨rows, hrows, h⟩ := exceptBind_eq_ok.mp h
    cases h
    have hlira : (tableArgs filing context institutionId periodId chunk row).rawCurrency = "TRY" :=
      rfl
    refine recordCandidate_speaksCode ?_ hs hrows
    rw [hlira]
    exact spelledAsCode_try hU hT

/-- **The tables** are read in lira. -/
theorem readTables_speaksCode (hU : R.chars.toCharClass.KnowsAscii)
    (hT : R.letters.KeepsCapitals) {chunks : List Chunk} {s : Progress}
    (hrows : AllSpeakCode R rows)
    (h : readTables R filing context institutionId periodId chunks rows = .ok s) :
    AllSpeakCode R s.rows := by
  refine foldlM_invariant (I := fun s => AllSpeakCode R s.rows) (fun s chunk _ s' hs h => ?_)
    hrows h
  rw [chunkStep] at h
  split at h
  · cases h
    exact hs
  · obtain ⟨rows, -, h⟩ := exceptBind_eq_ok.mp h
    have hstep : ∀ s, ∀ row ∈ rows, ∀ s', AllSpeakCode R s.rows →
        tableStep R filing context institutionId periodId chunk s row = .ok s' →
        AllSpeakCode R s'.rows := fun s row _ s' hs h => tableStep_speaksCode hU hT hs h
    exact foldlM_invariant (I := fun s => AllSpeakCode R s.rows) hstep hs h

/-- The model spells every currency that it reports as the code. -/
def ReportsCodes (R : ReaderText) (invoke : ℕ → LlmFactExtractionService.Batch →
    List LlmFactExtractionService.ToolCall) (chunks : List Chunk) : Prop :=
  ∀ batch fields, LlmFactExtractionService.Reported R invoke (chunks.map (·.content)) batch
      (.obj fields) →
    SpelledAsCode R.chars.toCharClass R.letters (strip R.chars.toCharClass
      (LlmFactExtractionService.optionalText R fields "currency"))

/-- **The figures of a model** are read in the currency that it reports. -/
theorem readWithModel_speaksCode (hU : R.chars.toCharClass.KnowsAscii)
    (hT : R.letters.KeepsCapitals) {chunks : List Chunk}
    {invoke : ℕ → LlmFactExtractionService.Batch → List LlmFactExtractionService.ToolCall}
    {x : LlmFactExtractionService.LlmExtractionResult × List CandidateRow}
    (hcodes : ReportsCodes R invoke chunks) (hrows : AllSpeakCode R rows)
    (h : readWithModel R filing context institutionId periodId invoke chunks rows = .ok x) :
    AllSpeakCode R x.2 := by
  rw [readWithModel] at h
  obtain ⟨result, hresult, h⟩ := exceptBind_eq_ok.mp h
  obtain ⟨rows', hrows', h⟩ := exceptBind_eq_ok.mp h
  cases h
  refine foldlM_invariant (I := AllSpeakCode R) (fun s fact hfact s' hs h => ?_) hrows hrows'
  refine recordCandidate_speaksCode ?_ hs h
  obtain ⟨batch, figure, hreported, -, -, fields, rfl, hcurrency⟩ :=
    LlmFactExtractionService.extract_spec (exceptMapError_eq_ok.mp hresult) fact
      (List.mem_of_mem_take hfact)
  have hspelled := hcodes batch fields hreported
  simp only [factArgs, hcurrency, LlmFactExtractionService.nonempty]
  split
  · exact spelledAsCode_try hU hT
  · simpa using hspelled

/-- **Rows speak the code** exactly if their currency was spelled as the code, and an
extraction leaves only such rows if the model reports only such currencies. -/
theorem extractCandidates_speaksCode (R : ReaderText) (hU : R.chars.toCharClass.KnowsAscii)
    (hT : R.letters.KeepsCapitals) (filing : Filing)
    (provider : Option (ℕ → LlmFactExtractionService.Batch →
      List LlmFactExtractionService.ToolCall))
    (chunks : List Chunk) (rows : List CandidateRow) :
    (∀ store args row store', CandidateCreation.existing R.chars.toCharClass store args = none →
      CandidateCreation.createCandidate R.chars.toCharClass R.letters store args =
        .ok (row, store') →
      (SpeaksCode R.chars.toCharClass R.letters row ↔
        SpelledAsCode R.chars.toCharClass R.letters args.rawCurrency.toList)) ∧
    ((∀ invoke ∈ provider, ReportsCodes R invoke chunks) → AllSpeakCode R rows →
      ∀ x, extractCandidates R filing provider chunks rows = .ok x → AllSpeakCode R x.2) := by
  constructor
  · intro store args row store' hnew h
    rw [speaksCode_iff, (createCandidate_currency hnew h).2]
  · intro hcodes hrows x h
    rw [extractCandidates] at h
    split at h
    · cases h
      exact hrows
    · obtain ⟨s, hs, h⟩ := exceptBind_eq_ok.mp h
      have hread := readTables_speaksCode hU hT hrows hs
      split at h
      · cases h
        exact hread
      · split at h
        · cases h
          exact hread
        · obtain ⟨y, hy, h⟩ := exceptBind_eq_ok.mp h
          cases h
          exact readWithModel_speaksCode hU hT (hcodes _ rfl) hread hy

/-- The result of a computation that does not raise. -/
theorem ok_of_toOption {ε α : Type} {x : Except ε α} {a : α} (h : x.toOption = some a) :
    x = .ok a := by
  cases x with
  | ok b => exact congrArg _ (Option.some.inj h)
  | error e => cases h

/-- A figure as a model reports it, in a currency. -/
def figureIn (currency : String) : ModelJson :=
  .obj [("metric_code".toList, .str "NET_PROFIT".toList), ("raw_label".toList, .str "Net Profit".toList),
    ("raw_value".toList, .str "5".toList), ("currency".toList, .str currency.toList),
    ("excerpt_index".toList, .int 0), ("period_hint".toList, .str "2026".toList)]

/-- A row of an earlier table. -/
def earlierRow : CandidateRow :=
  CandidateCreation.rowOf .ascii
    { organizationId := 1
      institutionId := 4
      reportingPeriodId := 5
      rawLabel := "Total Loans".toList
      rawValue := "7".toList
      sourceDocumentId := 2
      sourceDocumentVersionId := 3 }
    none ⟨some (.finite 7), false, []⟩ (some (.finite 7)) (some (.finite 7))

/-- A model that reports the code adds a row to one that is there, and both can be used. -/
theorem extractCandidates_speaksCode_figure :
    ∃ x, extractCandidates .ascii vakbnFiling
        (some fun _ _ => [⟨[("figures".toList, .arr [figureIn "TRY"])]⟩])
        [⟨"TEXT", "Net Profit 5 TRY".toList, fun _ => []⟩] [earlierRow] = .ok x ∧
      x.2.length = 2 ∧ AllSpeakCode .ascii x.2 := by
  have hrun : ((extractCandidates .ascii vakbnFiling
      (some fun _ _ => [⟨[("figures".toList, .arr [figureIn "TRY"])]⟩])
      [⟨"TEXT", "Net Profit 5 TRY".toList, fun _ => []⟩] [earlierRow]).toOption.map fun x =>
        x.2.length) = some 2 := by
    decide +kernel
  obtain ⟨x, hx, hlength⟩ := Option.map_eq_some_iff.mp hrun
  have hU : ReaderText.ascii.chars.toCharClass.KnowsAscii := CharClass.knowsAscii_ascii
  have htry := spelledAsCode_try hU TextCase.keepsCapitals_ascii
  have hcodes : ReportsCodes .ascii (fun _ _ => [⟨[("figures".toList, .arr [figureIn "TRY"])]⟩])
      [⟨"TEXT", "Net Profit 5 TRY".toList, fun _ => []⟩] := by
    rintro batch fields ⟨i, -, hfigure⟩
    obtain rfl : fields = _ := Json.obj.inj (List.mem_singleton.mp hfigure)
    exact htry
  have hrows : AllSpeakCode .ascii [earlierRow] := by
    intro row hrow
    obtain rfl := List.mem_singleton.mp hrow
    exact speaksCode_iff.mpr htry
  have hok := ok_of_toOption hx
  refine ⟨x, hok, hlength, (extractCandidates_speaksCode .ascii hU TextCase.keepsCapitals_ascii
    vakbnFiling _ _ [earlierRow]).2 (fun invoke h => ?_) hrows x hok⟩
  obtain rfl := Option.some.inj h
  exact hcodes

/-- The candidate of that figure, as a reviewer gets it. -/
def liraCandidate : FinancialFactCandidate where
  id := 1
  organizationId := 1
  institutionId := 4
  reportingPeriodId := 5
  metricDefinitionId := some 1
  parsedDecimalValue := some 5
  normalizedCurrency := "TL"
  normalizedUnit := "CURRENCY"
  normalizedScale := "ONE"
  normalizedValue := some 5
  detectedReportingBasis := "SOLO"
  sourceDocumentId := 2
  sourceDocumentVersionId := 3
  validationStatus := .normalized
  reviewStatus := .pending

/-- What `TL` leaves in the candidate is no code, so the fact made of it is refused. -/
theorem extractCandidates_keepsSpelling :
    ∃ x, extractCandidates .ascii vakbnFiling
        (some fun _ _ => [⟨[("figures".toList, .arr [figureIn "TL"])]⟩])
        [⟨"TEXT", "Net Profit 5 TL".toList, fun _ => []⟩] [] = .ok x ∧
      NormalizationService.normalizeCurrency .ascii .ascii "TL".toList = some "TRY".toList ∧
      ∃ row ∈ x.2, row.currency = "TL" ∧ ¬ SpeaksCode .ascii .ascii row ∧
        ∃ fact, MadeOf row fact ∧ currencyMismatch fact "TRY".toList = true := by
  have hrun : ((extractCandidates .ascii vakbnFiling
      (some fun _ _ => [⟨[("figures".toList, .arr [figureIn "TL"])]⟩])
      [⟨"TEXT", "Net Profit 5 TL".toList, fun _ => []⟩] []).toOption.map fun x =>
        x.2.any fun row => row.currency == "TL" && row.unit == "CURRENCY") = some true := by
    decide +kernel
  obtain ⟨x, hx, hany⟩ := Option.map_eq_some_iff.mp hrun
  obtain ⟨row, hrow, hboth⟩ := List.any_eq_true.mp hany
  rw [Bool.and_eq_true, beq_iff_eq, beq_iff_eq] at hboth
  obtain ⟨hcurrency, hunit⟩ := hboth
  have hcode : NormalizationService.normalizeCurrency .ascii .ascii "TL".toList =
      some "TRY".toList := by decide +kernel
  refine ⟨x, ok_of_toOption hx, hcode, row, hrow, hcurrency, fun hspeaks => ?_, ?_⟩
  · have hsame := (hspeaks "TRY".toList (by rw [hcurrency]; exact hcode)).1
    rw [hcurrency] at hsame
    revert hsame
    decide
  · exact ⟨FinancialFactService.newFact liraCandidate ⟨1, "NET_PROFIT"⟩ .solo 5 1 1 none 0 0,
      ⟨liraCandidate, _, _, _, _, _, _, _, _, hcurrency.symm, hunit.symm, rfl⟩, by decide⟩

end FactExtractionService

end FinanceIntelligence
