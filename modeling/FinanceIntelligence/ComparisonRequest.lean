import FinanceIntelligence.PydanticFields

/-!
# The comparison request on the wire

The mobile client writes a `ComparisonRequest` with `toJson` (wire_models.dart)
and posts it; the server reads it into a `ComparisonRequestDTO`
(schemas/comparison.py), where every field but four has a default.

* `modelValidate_toJson` — **what the server reads**: the twelve fields that
  `toJson` writes arrive as they were sent, the page and the page size are the
  server's defaults.
-/

namespace FinanceIntelligence

/-! ## The client -/

/-- A measure the client asks for. -/
structure SemanticMeasureSelector where
  semanticMeasureCode : String
  /-- where its values should come from -/
  preferredOrigin : String := "AUTO"

/-- What the client asks for. -/
structure ComparisonRequest where
  institutionIds : List String
  semanticMeasures : List SemanticMeasureSelector
  reportingPeriodIds : List String
  /-- solo or consolidated figures -/
  reportingBasis : String
  currency : String := "TRY"
  /-- the scale figures are shown in -/
  displayScale : String := "MILLION"
  /-- which of two sources of a value is preferred -/
  valueSourcePolicy : String := "PREFER_SOURCE_REPORTED"
  /-- the measure that rows are sorted by -/
  sortMeasureCode : Option String := none
  /-- the origin of the values that rows are sorted by -/
  sortOrigin : Option String := none
  /-- ascending or descending -/
  sortDirection : String := "desc"
  /-- what the first rows are counted in -/
  topNScope : String := "INSTITUTIONS_PER_PERIOD"
  /-- how many of the first rows are kept -/
  topN : Option ℤ := none
  /-- the page shown -/
  page : ℤ := 1
  /-- the rows of a page -/
  pageSize : ℤ := 20

/-- JSON data of a request; the doubles do not matter. -/
abbrev WireJson (D : Type) := Json String D

variable {D U : Type}

/-- `SemanticMeasureSelector.toJson`. -/
def SemanticMeasureSelector.toJson (s : SemanticMeasureSelector) : WireJson D :=
  .obj [("semantic_measure_code", .str s.semanticMeasureCode),
    ("preferred_origin", .str s.preferredOrigin)]

namespace ComparisonRequest

/-- A list of texts. -/
def texts (l : List String) : WireJson D := .arr (l.map .str)

/-- The measures. -/
def measures (l : List SemanticMeasureSelector) : WireJson D := .arr (l.map (·.toJson))

/-- The entries of the map literal in `toJson`; those with an `if` may be absent. -/
def jsonEntries (r : ComparisonRequest) : List (String × Option (WireJson D)) :=
  [("institution_ids", some (texts r.institutionIds)),
    ("semantic_measures", some (measures r.semanticMeasures)),
    ("reporting_period_ids", some (texts r.reportingPeriodIds)),
    ("reporting_basis", some (.str r.reportingBasis)),
    ("currency", some (.str r.currency)),
    ("display_scale", some (.str r.displayScale)),
    ("value_source_policy", some (.str r.valueSourcePolicy)),
    ("sort_measure_code", r.sortMeasureCode.map .str),
    ("sort_origin", r.sortOrigin.map .str),
    ("sort_direction", some (.str r.sortDirection)),
    ("top_n_scope", some (.str r.topNScope)),
    ("top_n", r.topN.map .int)]

/-- The keys of the map literal. -/
def sentNames : List String :=
  ["institution_ids", "semantic_measures", "reporting_period_ids", "reporting_basis", "currency",
    "display_scale", "value_source_policy", "sort_measure_code", "sort_origin", "sort_direction",
    "top_n_scope", "top_n"]

theorem jsonEntries_keys (r : ComparisonRequest) :
    (r.jsonEntries (D := D)).map (·.1) = sentNames := rfl

/-- `ComparisonRequest.toJson`. -/
def toJson (r : ComparisonRequest) : WireJson D := .obj (presentEntries r.jsonEntries)

end ComparisonRequest

/-! ## The server -/

/-- The origins a measure may prefer. -/
def preferredOrigins : List String := ["AUTO", "SOURCE_REPORTED", "SYSTEM_DERIVED"]

theorem auto_mem_preferredOrigins : "AUTO" ∈ preferredOrigins := by decide

/-- The reporting bases. -/
def reportingBases : List String := ["SOLO", "CONSOLIDATED"]

/-- The display scales. -/
def displayScales : List String := ["ONE", "THOUSAND", "MILLION", "BILLION"]

/-- The value source policies. -/
def valueSourcePolicies : List String :=
  ["SOURCE_REPORTED_ONLY", "SYSTEM_DERIVED_ONLY", "PREFER_SOURCE_REPORTED",
    "PREFER_SYSTEM_DERIVED", "BOTH_SEPARATE_SERIES"]

/-- The origins rows may be sorted by. -/
def sortOrigins : List String := ["SOURCE_REPORTED", "SYSTEM_DERIVED"]

/-- The sort directions. -/
def sortDirections : List String := ["asc", "desc"]

theorem desc_mem_sortDirections : "desc" ∈ sortDirections := by decide

/-- What the first rows may be counted in. -/
def topNScopes : List String := ["INSTITUTIONS_PER_PERIOD", "DATASET_ROWS_GLOBAL"]

theorem perPeriod_mem_topNScopes : "INSTITUTIONS_PER_PERIOD" ∈ topNScopes := by decide

/-- The comparison modes. -/
def comparisonModes : List String := ["PERIOD_OVER_PERIOD", "CROSS_INSTITUTION", "MULTI_METRIC"]

theorem crossInstitution_mem_comparisonModes : "CROSS_INSTITUTION" ∈ comparisonModes := by decide

/-- The policies on periods that not every institution has. -/
def commonPeriodPolicies : List String := ["STRICT_COMMON_PERIOD", "ALLOW_PARTIAL_WITH_WARNINGS"]

/-- The evidence policies. -/
def evidencePolicies : List String := ["STRICT", "PARTIAL"]

/-- The chart types. -/
def chartTypeNames : List String := ["horizontal_bar", "vertical_bar", "grouped_bar", "line"]

/-- `SemanticMeasureSelectorDTO`. -/
structure SemanticMeasureSelectorDTO where
  /-- the code of the measure -/
  semantic_measure_code : String
  /-- where its values should come from -/
  preferred_origin : Literal preferredOrigins

/-- `ComparisonRequestDTO`. -/
structure ComparisonRequestDTO (U : Type) where
  /-- the institutions -/
  institution_ids : BoundedList U 1 10
  /-- the measures -/
  semantic_measures : BoundedList SemanticMeasureSelectorDTO 1 15
  /-- the reporting periods -/
  reporting_period_ids : BoundedList U 1 20
  /-- solo or consolidated figures -/
  reporting_basis : Literal reportingBases
  currency : String
  /-- the scale figures are shown in -/
  display_scale : Literal displayScales
  /-- which of two sources of a value is preferred -/
  value_source_policy : Literal valueSourcePolicies
  /-- the measure that rows are sorted by -/
  sort_measure_code : Option String
  /-- the origin of the values that rows are sorted by -/
  sort_origin : Option (Literal sortOrigins)
  /-- ascending or descending -/
  sort_direction : Literal sortDirections
  /-- how many of the first rows are kept -/
  top_n : Option (BoundedInt 1 (some 50))
  /-- what the first rows are counted in -/
  top_n_scope : Literal topNScopes
  /-- the comparison mode -/
  comparison_mode : Literal comparisonModes
  /-- what to do about periods that not every institution has -/
  common_period_policy : Literal commonPeriodPolicies
  /-- what to do about values without evidence -/
  evidence_policy : Literal evidencePolicies
  /-- the charts to draw -/
  chart_types : BoundedList (Literal chartTypeNames) 0 4
  /-- evidence is wanted -/
  include_evidence : Bool
  /-- reconciliations are wanted -/
  include_reconciliation : Bool
  /-- the page shown -/
  page : BoundedInt 1 none
  /-- the rows of a page -/
  page_size : BoundedInt 1 (some 100)

namespace SemanticMeasureSelectorDTO

/-- `semantic_measure_code: str`. -/
def semanticMeasureCode : Field (WireJson D) String :=
  ⟨"semantic_measure_code", LaxRules.str, none⟩

/-- `preferred_origin: Literal[…] = "AUTO"`. -/
def preferredOrigin : Field (WireJson D) (Literal preferredOrigins) :=
  ⟨"preferred_origin", LaxRules.literal _, some ⟨"AUTO", auto_mem_preferredOrigins⟩⟩

/-- Validation of a selector. -/
def modelValidate : WireJson D → Option SemanticMeasureSelectorDTO
  | .obj fields =>
    if extraForbid ["semantic_measure_code", "preferred_origin"] fields then do
      let code ← semanticMeasureCode.read fields
      let origin ← preferredOrigin.read fields
      pure ⟨code, origin⟩
    else none
  | _ => none

end SemanticMeasureSelectorDTO

namespace ComparisonRequestDTO

variable (rules : LaxRules D U)

/-- `institution_ids: list[UUID] = Field(min_length=1, max_length=10)`. -/
def institutionIds : Field (WireJson D) (BoundedList U 1 10) :=
  ⟨"institution_ids", LaxRules.boundedList 1 10 rules.uuid, none⟩

/-- `semantic_measures: list[…] = Field(min_length=1, max_length=15)`. -/
def semanticMeasures : Field (WireJson D) (BoundedList SemanticMeasureSelectorDTO 1 15) :=
  ⟨"semantic_measures", LaxRules.boundedList 1 15 SemanticMeasureSelectorDTO.modelValidate, none⟩

/-- `reporting_period_ids: list[UUID] = Field(min_length=1, max_length=20)`. -/
def reportingPeriodIds : Field (WireJson D) (BoundedList U 1 20) :=
  ⟨"reporting_period_ids", LaxRules.boundedList 1 20 rules.uuid, none⟩

/-- `reporting_basis: Literal[…]`. -/
def reportingBasis : Field (WireJson D) (Literal reportingBases) :=
  ⟨"reporting_basis", LaxRules.literal _, none⟩

/-- `currency: str = "TRY"`. -/
def currencyField : Field (WireJson D) String := ⟨"currency", LaxRules.str, some "TRY"⟩

/-- `display_scale: Literal[…] = "MILLION"`. -/
def displayScale : Field (WireJson D) (Literal displayScales) :=
  ⟨"display_scale", LaxRules.literal _, some ⟨"MILLION", by decide⟩⟩

/-- `value_source_policy: Literal[…] = "PREFER_SOURCE_REPORTED"`. -/
def valueSourcePolicy : Field (WireJson D) (Literal valueSourcePolicies) :=
  ⟨"value_source_policy", LaxRules.literal _, some ⟨"PREFER_SOURCE_REPORTED", by decide⟩⟩

/-- `sort_measure_code: str | None = None`. -/
def sortMeasureCode : Field (WireJson D) (Option String) :=
  ⟨"sort_measure_code", LaxRules.nullable LaxRules.str, some none⟩

/-- `sort_origin: Literal[…] | None = None`. -/
def sortOrigin : Field (WireJson D) (Option (Literal sortOrigins)) :=
  ⟨"sort_origin", LaxRules.nullable (LaxRules.literal _), some none⟩

/-- `sort_direction: Literal["asc", "desc"] = "desc"`. -/
def sortDirection : Field (WireJson D) (Literal sortDirections) :=
  ⟨"sort_direction", LaxRules.literal _, some ⟨"desc", desc_mem_sortDirections⟩⟩

/-- `top_n: int | None = Field(default=None, ge=1, le=50)`. -/
def topN : Field (WireJson D) (Option (BoundedInt 1 (some 50))) :=
  ⟨"top_n", LaxRules.nullable (rules.boundedInt 1 (some 50)), some none⟩

/-- `top_n_scope: Literal[…] = "INSTITUTIONS_PER_PERIOD"`. -/
def topNScope : Field (WireJson D) (Literal topNScopes) :=
  ⟨"top_n_scope", LaxRules.literal _, some ⟨"INSTITUTIONS_PER_PERIOD", perPeriod_mem_topNScopes⟩⟩

/-- `comparison_mode: Literal[…] = "CROSS_INSTITUTION"`. -/
def comparisonMode : Field (WireJson D) (Literal comparisonModes) :=
  ⟨"comparison_mode", LaxRules.literal _, some ⟨"CROSS_INSTITUTION", crossInstitution_mem_comparisonModes⟩⟩

/-- `common_period_policy: Literal[…] = "ALLOW_PARTIAL_WITH_WARNINGS"`. -/
def commonPeriodPolicy : Field (WireJson D) (Literal commonPeriodPolicies) :=
  ⟨"common_period_policy", LaxRules.literal _, some ⟨"ALLOW_PARTIAL_WITH_WARNINGS", by decide⟩⟩

/-- `evidence_policy: Literal["STRICT", "PARTIAL"] = "PARTIAL"`. -/
def evidencePolicy : Field (WireJson D) (Literal evidencePolicies) :=
  ⟨"evidence_policy", LaxRules.literal _, some ⟨"PARTIAL", by decide⟩⟩

/-- `chart_types: list[Literal[…]] = Field(default=["vertical_bar", "line"], max_length=4)`. -/
def chartTypes : Field (WireJson D) (BoundedList (Literal chartTypeNames) 0 4) :=
  ⟨"chart_types", LaxRules.boundedList 0 4 (LaxRules.literal _),
    some ⟨[⟨"vertical_bar", by decide⟩, ⟨"line", by decide⟩], by decide⟩⟩

/-- `include_evidence: bool = True`. -/
def includeEvidence : Field (WireJson D) Bool := ⟨"include_evidence", rules.bool, some true⟩

/-- `include_reconciliation: bool = True`. -/
def includeReconciliation : Field (WireJson D) Bool :=
  ⟨"include_reconciliation", rules.bool, some true⟩

theorem firstPage_bounded : (1 : ℤ) ≤ 1 ∧ ∀ m ∈ (none : Option ℤ), 1 ≤ m := by decide

theorem defaultPageSize_bounded : (1 : ℤ) ≤ 20 ∧ ∀ m ∈ some (100 : ℤ), 20 ≤ m := by decide

/-- `page: int = Field(default=1, ge=1)`. -/
def pageField : Field (WireJson D) (BoundedInt 1 none) :=
  ⟨"page", rules.boundedInt 1 none, some ⟨1, firstPage_bounded⟩⟩

/-- `page_size: int = Field(default=20, ge=1, le=100)`. -/
def pageSize : Field (WireJson D) (BoundedInt 1 (some 100)) :=
  ⟨"page_size", rules.boundedInt 1 (some 100), some ⟨20, defaultPageSize_bounded⟩⟩

/-- The keys of the model. -/
def fieldNames : List String :=
  ["institution_ids", "semantic_measures", "reporting_period_ids", "reporting_basis", "currency",
    "display_scale", "value_source_policy", "sort_measure_code", "sort_origin", "sort_direction",
    "top_n", "top_n_scope", "comparison_mode", "common_period_policy", "evidence_policy",
    "chart_types", "include_evidence", "include_reconciliation", "page", "page_size"]

/-- Validation of a request body. -/
def modelValidate : WireJson D → Option (ComparisonRequestDTO U)
  | .obj fields =>
    if extraForbid fieldNames fields then do
      let institution_ids ← (institutionIds rules).read fields
      let semantic_measures ← semanticMeasures.read fields
      let reporting_period_ids ← (reportingPeriodIds rules).read fields
      let reporting_basis ← reportingBasis.read fields
      let currency ← currencyField.read fields
      let display_scale ← displayScale.read fields
      let value_source_policy ← valueSourcePolicy.read fields
      let sort_measure_code ← sortMeasureCode.read fields
      let sort_origin ← sortOrigin.read fields
      let sort_direction ← sortDirection.read fields
      let top_n ← (topN rules).read fields
      let top_n_scope ← topNScope.read fields
      let comparison_mode ← comparisonMode.read fields
      let common_period_policy ← commonPeriodPolicy.read fields
      let evidence_policy ← evidencePolicy.read fields
      let chart_types ← chartTypes.read fields
      let include_evidence ← (includeEvidence rules).read fields
      let include_reconciliation ← (includeReconciliation rules).read fields
      let page ← (pageField rules).read fields
      let page_size ← (pageSize rules).read fields
      pure {
        institution_ids, semantic_measures, reporting_period_ids, reporting_basis, currency,
        display_scale, value_source_policy, sort_measure_code, sort_origin, sort_direction,
        top_n, top_n_scope, comparison_mode, common_period_policy, evidence_policy, chart_types,
        include_evidence, include_reconciliation, page, page_size }
    else none
  | _ => none

end ComparisonRequestDTO

/-! ## The two sides -/

section Agreement

open ComparisonRequestDTO

open ComparisonRequest (texts measures)

variable (rules : LaxRules D U) (r : ComparisonRequest)

/-- The server accepts the value of each field, as its own validator of that
field reads it. -/
structure RequestAccepted : Prop where
  institutionIds : ∃ v, (institutionIds rules).validate (texts r.institutionIds) = some v
  semanticMeasures : ∃ v,
    (semanticMeasures (D := D)).validate (measures r.semanticMeasures) = some v
  reportingPeriodIds : ∃ v,
    (reportingPeriodIds rules).validate (texts r.reportingPeriodIds) = some v
  reportingBasis : ∃ v, (reportingBasis (D := D)).validate (.str r.reportingBasis) = some v
  currency : ∃ v, (currencyField (D := D)).validate (.str r.currency) = some v
  displayScale : ∃ v, (displayScale (D := D)).validate (.str r.displayScale) = some v
  valueSourcePolicy : ∃ v,
    (valueSourcePolicy (D := D)).validate (.str r.valueSourcePolicy) = some v
  /-- the measure to sort by, if there is one -/
  sortMeasureCode : ∀ x ∈ r.sortMeasureCode, ∃ v,
    (sortMeasureCode (D := D)).validate (.str x) = some v
  /-- the origin to sort by, if there is one -/
  sortOrigin : ∀ x ∈ r.sortOrigin, ∃ v, (sortOrigin (D := D)).validate (.str x) = some v
  sortDirection : ∃ v, (sortDirection (D := D)).validate (.str r.sortDirection) = some v
  /-- what the first rows are counted in -/
  topNScope : ∃ v, (topNScope (D := D)).validate (.str r.topNScope) = some v
  /-- how many of the first rows are kept, if a number is given -/
  topN : ∀ x ∈ r.topN, ∃ v, (topN rules).validate (.int x) = some v
  page : ∃ v, (pageField rules).validate (.int r.page) = some v
  /-- the rows of a page -/
  pageSize : ∃ v, (pageSize rules).validate (.int r.pageSize) = some v

/-- The server's request is equal to the client's on the fields that `toJson`
writes. An id is equal to the text it is the value of. -/
structure AgreesAsSent (dto : ComparisonRequestDTO U) : Prop where
  institutionIds : r.institutionIds.mapM rules.uuidOfText = some dto.institution_ids.val
  semanticMeasures : r.semanticMeasures.map (fun m => (m.semanticMeasureCode, m.preferredOrigin)) =
    dto.semantic_measures.val.map fun m => (m.semantic_measure_code, m.preferred_origin.val)
  reportingPeriodIds :
    r.reportingPeriodIds.mapM rules.uuidOfText = some dto.reporting_period_ids.val
  reportingBasis : r.reportingBasis = dto.reporting_basis.val
  currency : r.currency = dto.currency
  displayScale : r.displayScale = dto.display_scale.val
  valueSourcePolicy : r.valueSourcePolicy = dto.value_source_policy.val
  sortMeasureCode : r.sortMeasureCode = dto.sort_measure_code
  sortOrigin : r.sortOrigin = dto.sort_origin.map (·.val)
  sortDirection : r.sortDirection = dto.sort_direction.val
  /-- what the first rows are counted in -/
  topNScope : r.topNScope = dto.top_n_scope.val
  /-- how many of the first rows are kept -/
  topN : r.topN = dto.top_n.map (·.val)

/-- The server's request is equal to the client's on every field the client's
has. -/
structure RequestAgrees (dto : ComparisonRequestDTO U) : Prop extends AgreesAsSent rules r dto where
  page : r.page = dto.page.val
  /-- the rows of a page -/
  pageSize : r.pageSize = dto.page_size.val

variable {rules r}

/-- The ids of an accepted list. -/
theorem mapM_texts (l : List String) :
    (l.map Json.str : List (WireJson D)).mapM rules.uuid = l.mapM rules.uuidOfText := by
  rw [List.mapM_map]
  rfl

/-- **An accepted selector** is the one that was sent. -/
theorem modelValidate_selector {m : SemanticMeasureSelector} {v : SemanticMeasureSelectorDTO}
    (h : SemanticMeasureSelectorDTO.modelValidate (m.toJson : WireJson D) = some v) :
    (m.semanticMeasureCode, m.preferredOrigin) =
      (v.semantic_measure_code, v.preferred_origin.val) := by
  simp only [SemanticMeasureSelector.toJson, SemanticMeasureSelectorDTO.modelValidate] at h
  split at h
  · obtain ⟨code, hcode, h⟩ := Option.bind_eq_some_iff.mp h
    obtain ⟨origin, horigin, h⟩ := Option.bind_eq_some_iff.mp h
    rw [Field.read_of_lookup rfl] at hcode horigin
    obtain rfl := Option.some.inj hcode
    obtain rfl := Option.some.inj h
    exact Prod.ext rfl (LaxRules.literal_eq_some (D := D) horigin).symm
  · cases h

/-- The members of an accepted list of selectors. -/
theorem mapM_measures {l : List SemanticMeasureSelector} :
    ∀ {v : List SemanticMeasureSelectorDTO},
      (l.map (·.toJson) : List (WireJson D)).mapM SemanticMeasureSelectorDTO.modelValidate = some v →
      l.map (fun m => (m.semanticMeasureCode, m.preferredOrigin)) =
        v.map fun m => (m.semantic_measure_code, m.preferred_origin.val) := by
  induction l with
  | nil =>
    intro v h
    cases h
    rfl
  | cons m l ih =>
    intro v h
    rw [List.map_cons, List.mapM_cons] at h
    obtain ⟨x, hx, h⟩ := Option.bind_eq_some_iff.mp h
    obtain ⟨v', hv', h⟩ := Option.bind_eq_some_iff.mp h
    cases h
    rw [List.map_cons, List.map_cons, modelValidate_selector hx, ih hv']

/-- What the server finds under a key. -/
theorem lookup_toJson (r : ComparisonRequest) (key : String) :
    (presentEntries r.jsonEntries : List (String × WireJson D)).lookup key =
      (r.jsonEntries.lookup key).join :=
  lookup_presentEntries (by rw [ComparisonRequest.jsonEntries_keys]; decide) key

/-- The keys that `toJson` writes are fields of the server's model. -/
theorem extraForbid_toJson (r : ComparisonRequest) :
    extraForbid fieldNames (presentEntries r.jsonEntries : List (String × WireJson D)) = true :=
  extraForbid_presentEntries (by rw [ComparisonRequest.jsonEntries_keys]; decide)

/-- A key that `toJson` writes is validated. -/
theorem read_toJson {V : Type} {f : Field (WireJson D) V} {v : WireJson D} {x : V}
    (hv : (r.jsonEntries.lookup f.name).join = some v) (hx : f.validate v = some x) :
    f.read (presentEntries r.jsonEntries) = some x :=
  (Field.read_of_lookup ((lookup_toJson r f.name).trans hv)).trans hx

/-- A key that `toJson` does not write is the default. -/
theorem read_toJson_absent {V : Type} {f : Field (WireJson D) V}
    (hv : ((r.jsonEntries (D := D)).lookup f.name).join = none) :
    f.read (presentEntries r.jsonEntries) = f.default :=
  Field.read_of_absent ((lookup_toJson r f.name).trans hv)

/-- **What the server reads**: the fields that `toJson` writes arrive as they were
sent; the page is the first one and has twenty rows, whatever the client's. -/
theorem modelValidate_toJson (h : RequestAccepted rules r) :
    ∃ dto, modelValidate rules r.toJson = some dto ∧ AgreesAsSent rules r dto ∧
      dto.page.val = 1 ∧ dto.page_size.val = 20 := by
  obtain ⟨ids, hids⟩ := h.institutionIds
  obtain ⟨measures, hmeasures⟩ := h.semanticMeasures
  obtain ⟨periods, hperiods⟩ := h.reportingPeriodIds
  obtain ⟨basis, hbasis⟩ := h.reportingBasis
  obtain ⟨currency, hcurrency⟩ := h.currency
  obtain ⟨scale, hscale⟩ := h.displayScale
  obtain ⟨policy, hpolicy⟩ := h.valueSourcePolicy
  obtain ⟨direction, hdirection⟩ := h.sortDirection
  obtain ⟨scope, hscope⟩ := h.topNScope
  -- the three keys that are there only with a value
  obtain ⟨code, hcode, hcodeEq⟩ := Field.read_optional (f := sortMeasureCode (D := D))
    (g := id) (k := id) (lookup_toJson r "sort_measure_code") rfl fun x _ => ⟨x, rfl, rfl⟩
  obtain ⟨origin, horigin, horiginEq⟩ := Field.read_optional (f := sortOrigin (D := D))
    (g := Subtype.val) (k := id) (lookup_toJson r "sort_origin") rfl fun x hx => by
      obtain ⟨v, hv⟩ := h.sortOrigin x hx
      obtain ⟨w, hw, rfl⟩ := Option.map_eq_some_iff.mp hv
      exact ⟨w, hv, LaxRules.literal_eq_some (D := D) hw⟩
  obtain ⟨top, htop, htopEq⟩ := Field.read_optional (f := topN rules)
    (g := Subtype.val) (k := id) (lookup_toJson r "top_n") rfl fun x hx => by
      obtain ⟨v, hv⟩ := h.topN x hx
      obtain ⟨w, hw, rfl⟩ := Option.map_eq_some_iff.mp hv
      exact ⟨w, hv, LaxRules.boundedInt_eq_some hw⟩
  refine ⟨⟨ids, measures, periods, basis, currency, scale, policy, code, origin, direction, top,
    scope, ⟨"CROSS_INSTITUTION", by decide⟩, ⟨"ALLOW_PARTIAL_WITH_WARNINGS", by decide⟩,
    ⟨"PARTIAL", by decide⟩, ⟨[⟨"vertical_bar", by decide⟩, ⟨"line", by decide⟩], by decide⟩, true,
    true, ⟨1, by decide⟩, ⟨20, by decide⟩⟩, ?_, ?_, rfl, rfl⟩
  · simp only [modelValidate, ComparisonRequest.toJson, extraForbid_toJson, if_true,
      read_toJson rfl hids, read_toJson rfl hmeasures, read_toJson rfl hperiods,
      read_toJson rfl hbasis, read_toJson rfl hcurrency, read_toJson rfl hscale,
      read_toJson rfl hpolicy, read_toJson rfl hdirection, read_toJson rfl hscope, hcode, horigin,
      htop, read_toJson_absent (f := comparisonMode) rfl,
      read_toJson_absent (f := commonPeriodPolicy) rfl,
      read_toJson_absent (f := evidencePolicy) rfl, read_toJson_absent (f := chartTypes) rfl,
      read_toJson_absent (f := includeEvidence rules) rfl,
      read_toJson_absent (f := includeReconciliation rules) rfl,
      read_toJson_absent (f := pageField rules) rfl, read_toJson_absent (f := pageSize rules) rfl]
    rfl
  · constructor
    · exact (mapM_texts _).symm.trans (LaxRules.boundedList_eq_some hids)
    · exact mapM_measures (LaxRules.boundedList_eq_some hmeasures)
    · exact (mapM_texts _).symm.trans (LaxRules.boundedList_eq_some hperiods)
    · exact (LaxRules.literal_eq_some (D := D) hbasis).symm
    · exact Option.some.inj hcurrency
    · exact (LaxRules.literal_eq_some (D := D) hscale).symm
    · exact (LaxRules.literal_eq_some (D := D) hpolicy).symm
    · simpa using hcodeEq
    · simpa using horiginEq
    · exact (LaxRules.literal_eq_some (D := D) hdirection).symm
    · exact (LaxRules.literal_eq_some (D := D) hscope).symm
    · simpa using htopEq

/-- **The request agrees** exactly for the first page of twenty rows: `toJson` writes neither the
page nor the page size. All other fields arrive as they are, whatever they hold. -/
theorem comparisonRequest_agrees_iff (h : RequestAccepted rules r) :
    (∃ dto, modelValidate rules r.toJson = some dto ∧ RequestAgrees rules r dto) ↔
      r.page = 1 ∧ r.pageSize = 20 := by
  obtain ⟨dto, hdto, hsent, hpage, hsize⟩ := modelValidate_toJson h
  constructor
  · rintro ⟨dto', hdto', hagrees⟩
    obtain rfl := Option.some.inj (hdto.symm.trans hdto')
    exact ⟨hagrees.page.trans hpage, hagrees.pageSize.trans hsize⟩
  · rintro ⟨hr, hr'⟩
    exact ⟨dto, hdto, hsent, hr.trans hpage.symm, hr'.trans hsize.symm⟩

end Agreement

/-- Ids that are the texts they are written as, for ids in their usual form. -/
def plainRules : LaxRules Empty String := ⟨some, fun _ => none, nofun, fun _ => none⟩

/-- A request with every optional field, for the first page. -/
def sampleRequest : ComparisonRequest where
  institutionIds := ["11111111-1111-1111-1111-111111111111"]
  semanticMeasures := [{ semanticMeasureCode := "NPL_RATIO" }]
  reportingPeriodIds := ["22222222-2222-2222-2222-222222222222"]
  reportingBasis := "SOLO"
  sortMeasureCode := some "NPL_RATIO"
  sortOrigin := some "SYSTEM_DERIVED"
  topN := some 5

/-- The server accepts the fields of the sample, whatever page is asked for. -/
theorem sampleRequest_accepted (page : ℤ) (hpage : 1 ≤ page) :
    RequestAccepted plainRules { sampleRequest with page } where
  institutionIds := ⟨_, rfl⟩
  semanticMeasures := ⟨_, rfl⟩
  reportingPeriodIds := ⟨_, rfl⟩
  reportingBasis := ⟨_, rfl⟩
  currency := ⟨_, rfl⟩
  displayScale := ⟨_, rfl⟩
  valueSourcePolicy := ⟨_, rfl⟩
  sortMeasureCode := by
    rintro x ⟨⟩
    exact ⟨_, rfl⟩
  sortOrigin := by
    rintro x ⟨⟩
    exact ⟨_, rfl⟩
  sortDirection := ⟨_, rfl⟩
  topNScope := ⟨_, rfl⟩
  topN := by
    rintro x ⟨⟩
    exact ⟨_, rfl⟩
  page := ⟨⟨page, hpage, nofun⟩, dif_pos _⟩
  pageSize := ⟨_, rfl⟩

/-- The first page of the sample arrives as it was sent. -/
theorem comparisonRequest_agrees_first_page :
    ∃ dto, ComparisonRequestDTO.modelValidate plainRules { sampleRequest with page := 1 }.toJson =
      some dto ∧ RequestAgrees plainRules { sampleRequest with page := 1 } dto :=
  (comparisonRequest_agrees_iff (sampleRequest_accepted 1 (by decide))).mpr ⟨rfl, rfl⟩

/-- The second page is asked for and the first one is read. -/
theorem comparisonRequest_second_page_lost :
    ¬ ∀ r : ComparisonRequest, RequestAccepted plainRules r →
      ∃ dto, ComparisonRequestDTO.modelValidate plainRules r.toJson = some dto ∧
        RequestAgrees plainRules r dto := by
  intro h
  obtain ⟨dto, hdto, hagrees⟩ := h { sampleRequest with page := 2 }
    (sampleRequest_accepted 2 (by decide))
  obtain ⟨dto', hdto', -, hpage, -⟩ := modelValidate_toJson (sampleRequest_accepted 2 (by decide))
  obtain rfl := Option.some.inj (hdto.symm.trans hdto')
  have h2 : (2 : ℤ) = dto.page.val := hagrees.page
  omega

end FinanceIntelligence
