import FinanceIntelligence.FactStore
import FinanceIntelligence.DecimalArithmetic
import FinanceIntelligence.ComparisonRequest
import FinanceIntelligence.Raising

/-!
# Semantic measures

`SemanticMeasureRegistry`: what can be compared, with the metric it is reported as and the formula
it is derived by, and what the value source policy of a request makes of the measures it asks for.

* `targetMeasures_key_inj` — **the key of a measure** in a dataset tells which measure it is and
  where its values come from.
-/

namespace FinanceIntelligence

/-- The exceptions of a comparison. -/
inductive ComparisonExc where
  /-- `ValueError`, with its text -/
  | value (code : String)
  /-- `ValueError`: `DATA_QUALITY_INVARIANT_VIOLATED: expected (…) != sum (…)` -/
  | dataQualityInvariantViolated (expected sum : ℕ)
  | multipleResultsFound
  /-- an exception of `decimal` -/
  | decimal (s : Decimal.Signal)
  /-- `IntegrityError` -/
  | integrity
deriving DecidableEq

/-- `result_unit`. -/
inductive ResultUnit where
  | currency
  | percent
  | ratio
deriving DecidableEq, Repr

/-- The text of a unit. -/
def ResultUnit.text : ResultUnit → String
  | currency => "CURRENCY"
  | percent => "PERCENT"
  | ratio => "RATIO"

/-- `unit in ("PERCENT", "RATIO")`. -/
def ResultUnit.isRelative : ResultUnit → Bool
  | currency => false
  | percent | ratio => true

/-- `SemanticMeasureDefinition`. -/
structure SemanticMeasureDefinition where
  semanticMeasureCode : String
  displayName : String
  reportedMetricCode : Option String
  derivedFormulaCode : Option String
  resultUnit : ResultUnit
deriving DecidableEq, Repr

namespace SemanticMeasureRegistry

/-- A measure that is only reported, under its own code. -/
def sourceReported (unit : ResultUnit) (line : String × String) : SemanticMeasureDefinition where
  semanticMeasureCode := line.1
  displayName := line.2
  reportedMetricCode := some line.1
  derivedFormulaCode := none
  resultUnit := unit

/-- A ratio that is reported or derived, both under its own code. -/
def ratio (line : String × String) : SemanticMeasureDefinition where
  semanticMeasureCode := line.1
  displayName := line.2
  reportedMetricCode := some line.1
  derivedFormulaCode := some line.1
  resultUnit := .percent

/-- `_SOURCE_REPORTED_LINES`. -/
def sourceReportedLines : List (String × String) :=
  [("CASH_AND_CENTRAL_BANK", "Cash and Central Bank"),
    ("BANKS_RECEIVABLES", "Banks"),
    ("SECURITIES_PORTFOLIO", "Securities Portfolio"),
    ("SUBSIDIARIES_AND_ASSOCIATES", "Subsidiaries and Associates"),
    ("TANGIBLE_ASSETS", "Tangible Assets"),
    ("INTANGIBLE_ASSETS", "Intangible Assets"),
    ("OTHER_ASSETS", "Other Assets"),
    ("TOTAL_LIABILITIES", "Total Liabilities"),
    ("FUNDS_BORROWED", "Funds Borrowed"),
    ("MONEY_MARKET_FUNDING", "Money Market Funding"),
    ("SECURITIES_ISSUED", "Securities Issued"),
    ("LEASE_LIABILITIES", "Lease Liabilities"),
    ("PROVISIONS", "Provisions"),
    ("SUBORDINATED_DEBT", "Subordinated Debt"),
    ("OTHER_LIABILITIES", "Other Liabilities"),
    ("PAID_IN_CAPITAL", "Paid-in Capital"),
    ("CAPITAL_RESERVES", "Capital Reserves"),
    ("PROFIT_RESERVES", "Profit Reserves"),
    ("RETAINED_EARNINGS", "Retained Earnings"),
    ("INTEREST_INCOME", "Interest Income"),
    ("INTEREST_EXPENSE", "Interest Expense"),
    ("NET_INTEREST_INCOME", "Net Interest Income"),
    ("NET_FEE_COMMISSION_INCOME", "Net Fee and Commission Income"),
    ("TRADING_INCOME", "Trading Income"),
    ("OPERATING_EXPENSES", "Operating Expenses"),
    ("EXPECTED_CREDIT_LOSS", "Expected Credit Loss"),
    ("PROFIT_BEFORE_TAX", "Profit Before Tax"),
    ("TAX_EXPENSE", "Tax Expense")]

/-- `_DEFINITIONS`. The codes that `setdefault` adds are new ones. -/
def definitions : List SemanticMeasureDefinition :=
  [("TOTAL_ASSETS", "Total Assets"), ("TOTAL_DEPOSITS", "Total Deposits"),
    ("TOTAL_LOANS", "Total Loans"), ("NON_PERFORMING_LOANS", "Non-Performing Loans"),
    ("NET_INCOME", "Net Income"),
    ("TOTAL_EQUITY", "Total Equity")].map (sourceReported .currency) ++
  [ratio ("LOAN_TO_DEPOSIT_RATIO", "Loan to Deposit Ratio"),
    ratio ("NPL_RATIO", "Non-Performing Loans Ratio"),
    { semanticMeasureCode := "GROWTH_RATE"
      displayName := "Growth Rate"
      reportedMetricCode := none
      derivedFormulaCode := some "GROWTH_RATE"
      resultUnit := .percent },
    ratio ("RETURN_ON_ASSETS", "Return on Assets"),
    ratio ("RETURN_ON_EQUITY", "Return on Equity")] ++
  sourceReportedLines.map (sourceReported .currency) ++
  [("CAPITAL_ADEQUACY_RATIO", "Capital Adequacy Ratio"),
    ("NET_INTEREST_MARGIN", "Net Interest Margin")].map (sourceReported .percent)

theorem definitions_codes_ne : ∀ defn ∈ definitions, defn.semanticMeasureCode ≠ "" := by
  decide

/-- `get`. -/
def get (code : String) : Except ComparisonExc SemanticMeasureDefinition :=
  match definitions.find? fun defn => defn.semanticMeasureCode == code with
  | some defn => .ok defn
  | none => .error (.value "SEMANTIC_MEASURE_MAPPING_UNAVAILABLE")

/-- What is found is in the registry. -/
theorem mem_of_get {code : String} {defn : SemanticMeasureDefinition} (h : get code = .ok defn) :
    defn ∈ definitions := by
  rw [get] at h
  split at h
  · rename_i found hfound
    obtain rfl := Except.ok.inj h
    exact List.mem_of_find?_eq_some hfound
  · cases h

/-- What is found has the code. -/
theorem code_of_get {code : String} {defn : SemanticMeasureDefinition} (h : get code = .ok defn) :
    defn.semanticMeasureCode = code := by
  rw [get] at h
  split at h
  · rename_i found hfound
    obtain rfl := Except.ok.inj h
    simpa using List.find?_some hfound
  · cases h

end SemanticMeasureRegistry

/-! ## Policies -/

/-- `value_source_policy`. -/
inductive ValueSourcePolicy where
  | sourceReportedOnly
  | systemDerivedOnly
  | preferSourceReported
  | preferSystemDerived
  | bothSeparateSeries
deriving DecidableEq, Repr

namespace ValueSourcePolicy

/-- The policy with a text. -/
def ofText (text : Literal valueSourcePolicies) : ValueSourcePolicy :=
  if text.val = "SOURCE_REPORTED_ONLY" then sourceReportedOnly
  else if text.val = "SYSTEM_DERIVED_ONLY" then systemDerivedOnly
  else if text.val = "PREFER_SOURCE_REPORTED" then preferSourceReported
  else if text.val = "PREFER_SYSTEM_DERIVED" then preferSystemDerived
  else bothSeparateSeries

/-- The policies that look at reported figures. -/
def usesReported : ValueSourcePolicy → Bool
  | systemDerivedOnly => false
  | sourceReportedOnly | preferSourceReported | preferSystemDerived | bothSeparateSeries => true

/-- The policies that look at derived figures. -/
def usesDerived : ValueSourcePolicy → Bool
  | sourceReportedOnly => false
  | systemDerivedOnly | preferSourceReported | preferSystemDerived | bothSeparateSeries => true

end ValueSourcePolicy

/-- An entry of `target_measures`. -/
structure TargetMeasure where
  /-- the key of the measure in the dataset -/
  key : String
  /-- the measure -/
  definition : SemanticMeasureDefinition
  defaultOrigin : ValueOrigin
deriving DecidableEq

/-- The targets that a policy makes of a measure. -/
def SemanticMeasureDefinition.targets (policy : ValueSourcePolicy)
    (defn : SemanticMeasureDefinition) : List TargetMeasure :=
  let code := defn.semanticMeasureCode
  let reported := defn.reportedMetricCode.isSome
  let derived := defn.derivedFormulaCode.isSome
  match policy with
  | .bothSeparateSeries =>
    (if reported then [⟨code ++ ":SOURCE_REPORTED", defn, .sourceReported⟩] else []) ++
      (if derived then [⟨code ++ ":SYSTEM_DERIVED", defn, .systemDerived⟩] else [])
  | .sourceReportedOnly => if reported then [⟨code, defn, .sourceReported⟩] else []
  | .systemDerivedOnly => if derived then [⟨code, defn, .systemDerived⟩] else []
  | .preferSourceReported => [⟨code, defn, .sourceReported⟩]
  | .preferSystemDerived => [⟨code, defn, .systemDerived⟩]

theorem SemanticMeasureDefinition.definition_of_mem_targets {policy : ValueSourcePolicy}
    {defn : SemanticMeasureDefinition} {t : TargetMeasure} (h : t ∈ defn.targets policy) :
    t.definition = defn := by
  cases policy <;> simp only [targets] at h <;> grind

/-- Without separate series the key of a measure is its code. -/
theorem SemanticMeasureDefinition.key_of_mem_targets {policy : ValueSourcePolicy}
    {defn : SemanticMeasureDefinition} {t : TargetMeasure} (hpolicy : policy ≠ .bothSeparateSeries)
    (h : t ∈ defn.targets policy) : t.key = defn.semanticMeasureCode := by
  cases policy <;> simp only [targets] at h <;> grind

theorem SemanticMeasureDefinition.length_targets_le (policy : ValueSourcePolicy)
    (defn : SemanticMeasureDefinition) : (defn.targets policy).length ≤ 2 := by
  cases policy <;> simp only [targets] <;> grind

namespace ComparisonService

/-- `semantic_defs`: the measures that are asked for, each once. -/
def semanticDefs (selectors : List SemanticMeasureSelectorDTO) :
    Except ComparisonExc (List SemanticMeasureDefinition) :=
  selectors.foldlM (fun defs sel => do
    let defn ← SemanticMeasureRegistry.get sel.semantic_measure_code
    return if defn ∈ defs then defs else defs ++ [defn]) []

/-- `needed_reported_metrics`. -/
def neededReportedMetrics (policy : ValueSourcePolicy) (defs : List SemanticMeasureDefinition) :
    List String :=
  if policy.usesReported then defs.filterMap (·.reportedMetricCode) else []

/-- `needed_derived_formulas`. -/
def neededDerivedFormulas (policy : ValueSourcePolicy) (defs : List SemanticMeasureDefinition) :
    List String :=
  if policy.usesDerived then defs.filterMap (·.derivedFormulaCode) else []

/-- `target_measures`. -/
def targetMeasures (policy : ValueSourcePolicy) (defs : List SemanticMeasureDefinition) :
    List TargetMeasure :=
  defs.flatMap (·.targets policy)

/-- The measures of the selectors. -/
structure DefsOf (selectors : List SemanticMeasureSelectorDTO)
    (defs : List SemanticMeasureDefinition) : Prop where
  /-- every selector has its measure -/
  found : ∀ sel ∈ selectors, ∃ defn ∈ defs,
    SemanticMeasureRegistry.get sel.semantic_measure_code = .ok defn
  /-- every measure has a selector -/
  asked : ∀ defn ∈ defs, ∃ sel ∈ selectors,
    SemanticMeasureRegistry.get sel.semantic_measure_code = .ok defn
  /-- there are not more measures than selectors -/
  length_le : defs.length ≤ selectors.length

theorem semanticDefs_eq_ok {selectors : List SemanticMeasureSelectorDTO}
    {defs : List SemanticMeasureDefinition} (h : semanticDefs selectors = .ok defs) :
    DefsOf selectors defs := by
  refine foldlM_collects (J := DefsOf) ?_ ⟨fun _ h => absurd h List.not_mem_nil,
    fun _ h => absurd h List.not_mem_nil, le_rfl⟩ h
  rintro seen defs sel defs' ⟨hfound, hasked, hlength⟩ hstep
  obtain ⟨defn, hget, hstep⟩ := exceptBind_eq_ok.mp hstep
  obtain rfl := Except.ok.inj hstep
  have hold : ∀ defn ∈ defs, ∃ sel' ∈ seen ++ [sel],
      SemanticMeasureRegistry.get sel'.semantic_measure_code = .ok defn := fun defn hdefn => by
    obtain ⟨sel', hsel', hget'⟩ := hasked defn hdefn
    exact ⟨sel', List.mem_append_left _ hsel', hget'⟩
  by_cases hmem : defn ∈ defs
  · rw [if_pos hmem]
    refine ⟨fun sel' hsel' => ?_, hold, by simp; omega⟩
    obtain hseen | hlast := List.mem_append.mp hsel'
    · exact hfound sel' hseen
    · obtain rfl := List.mem_singleton.mp hlast
      exact ⟨defn, hmem, hget⟩
  · rw [if_neg hmem]
    refine ⟨fun sel' hsel' => ?_, fun defn' hdefn' => ?_, by simp; omega⟩
    · obtain hseen | hlast := List.mem_append.mp hsel'
      · obtain ⟨defn', hdefn', hget'⟩ := hfound sel' hseen
        exact ⟨defn', List.mem_append_left _ hdefn', hget'⟩
      · obtain rfl := List.mem_singleton.mp hlast
        exact ⟨defn, List.mem_append_right _ (List.mem_singleton_self _), hget⟩
    · obtain hdefs | hlast := List.mem_append.mp hdefn'
      · exact hold defn' hdefs
      · obtain rfl := List.mem_singleton.mp hlast
        exact ⟨sel, List.mem_append_right _ (List.mem_singleton_self _), hget⟩

theorem semanticDefs_subset {selectors : List SemanticMeasureSelectorDTO}
    {defs : List SemanticMeasureDefinition} (h : semanticDefs selectors = .ok defs) :
    defs ⊆ SemanticMeasureRegistry.definitions := fun defn hdefn => by
  obtain ⟨sel, -, hget⟩ := (semanticDefs_eq_ok h).asked defn hdefn
  exact SemanticMeasureRegistry.mem_of_get hget

theorem length_targetMeasures_le (policy : ValueSourcePolicy)
    (defs : List SemanticMeasureDefinition) :
    (targetMeasures policy defs).length ≤ 2 * defs.length := by
  induction defs with
  | nil => exact le_rfl
  | cons defn defs ih =>
    have hdefn := defn.length_targets_le policy
    rw [targetMeasures] at ih ⊢
    rw [List.flatMap_cons, List.length_append, List.length_cons]
    omega

/-- The keys of all measures differ, under each policy. -/
theorem targetMeasures_keys_nodup (policy : ValueSourcePolicy) :
    ((targetMeasures policy SemanticMeasureRegistry.definitions).map (·.key)).Nodup := by
  cases policy <;> decide

/-- **Measures with one key** are the same. -/
theorem targetMeasures_key_inj {policy : ValueSourcePolicy}
    {selectors : List SemanticMeasureSelectorDTO} {defs : List SemanticMeasureDefinition}
    (h : semanticDefs selectors = .ok defs) {t u : TargetMeasure}
    (ht : t ∈ targetMeasures policy defs) (hu : u ∈ targetMeasures policy defs)
    (hkey : t.key = u.key) : t = u := by
  have hsub : targetMeasures policy defs ⊆
      targetMeasures policy SemanticMeasureRegistry.definitions :=
    fun t ht => by
      obtain ⟨defn, hdefn, ht⟩ := List.mem_flatMap.mp ht
      exact List.mem_flatMap.mpr ⟨defn, semanticDefs_subset h hdefn, ht⟩
  exact List.inj_on_of_nodup_map (targetMeasures_keys_nodup policy) (hsub ht) (hsub hu) hkey

end ComparisonService

end FinanceIntelligence
