import FinanceIntelligence.StateMachine
import Mathlib.Algebra.Group.Nat.Defs

/-!
# From a normalized request to a comparison request

The representations a request goes through inside `execute_job`: the outcome of
the normalizer, the arguments of the single plan step, and the request the
compare tool builds from them.

Each representation has fewer fields than the one before. Which of them are lost on the way is
settled in `UnderstoodRequest`.
-/

namespace FinanceIntelligence

/-- `UUID`. -/
abbrev Uuid := BitVec 128

/-- `uuid.__str__`: 32 digits in groups of 8, 4, 4, 4 and 12. -/
def uuidText (id : Uuid) : String :=
  let l := (List.range 32).map fun i => Nat.digitChar (id.toNat / 16 ^ (31 - i) % 16)
  String.ofList (l.take 8 ++ '-' :: (l.drop 8).take 4 ++ '-' :: (l.drop 12).take 4 ++
    '-' :: (l.drop 16).take 4 ++ '-' :: l.drop 20)

/-- The characters of an id are neither dots nor slashes. -/
theorem uuidText_plain (id : Uuid) : ∀ c ∈ (uuidText id).toList, c ≠ '.' ∧ c ≠ '/' := by
  have hdigit : ∀ d < 16, Nat.digitChar d ≠ '.' ∧ Nat.digitChar d ≠ '/' := by decide
  have hall : ∀ c ∈ (List.range 32).map fun i => Nat.digitChar (id.toNat / 16 ^ (31 - i) % 16),
      c ≠ '.' ∧ c ≠ '/' := by
    intro c hc
    obtain ⟨i, -, rfl⟩ := List.mem_map.mp hc
    exact hdigit _ (Nat.mod_lt _ (by decide))
  intro c hc
  simp only [uuidText, String.toList_ofList, List.mem_append, List.mem_cons] at hc
  have hdash : '-' ≠ '.' ∧ '-' ≠ '/' := by decide
  rcases hc with (((hc | rfl | hc) | rfl | hc) | rfl | hc) | rfl | hc
  · exact hall c (List.mem_of_mem_take hc)
  · exact hdash
  · exact hall c (List.mem_of_mem_drop (List.mem_of_mem_take hc))
  · exact hdash
  · exact hall c (List.mem_of_mem_drop (List.mem_of_mem_take hc))
  · exact hdash
  · exact hall c (List.mem_of_mem_drop (List.mem_of_mem_take hc))
  · exact hdash
  · exact hall c (List.mem_of_mem_drop hc)

/-- The reporting basis of a request. -/
inductive RequestedBasis where
  | solo
  | consolidated
deriving DecidableEq, Repr

/-- The intents a normalized request may have. -/
inductive Intent where
  | singlePeriodAnalysis
  | multiPeriodTrend
  | crossInstitutionComparison
  | ratioCalculation
deriving DecidableEq, Repr

/-- `NormalizedRequest`; the fields the normalizer leaves at their defaults are
left out. -/
structure NormalizedRequest where
  intent : Intent
  requestedInstitutions : List String
  requestedPeriods : List String
  requestedSemanticMeasures : List String
  reportingBasis : RequestedBasis := .solo
deriving DecidableEq, Repr

/-- What a clarification lets the user answer. -/
inductive AllowedResponse where
  | empty
  | acknowledged
  | institutionId (ids : List Uuid)
  | periodId (ids : List Uuid)
deriving DecidableEq, Repr

/-- `NormalizationOutcome`. -/
structure NormalizationOutcome where
  /-- `status == "NEEDS_CLARIFICATION"` -/
  needsClarification : Bool := false
  normalizedRequest : Option NormalizedRequest := none
  matchedInstitutionIds : List Uuid := []
  matchedPeriodIds : List Uuid := []
  clarificationCode : Option String := none
  clarificationPromptKey : Option String := none
  clarificationQuestion : Option String := none
  allowedResponseSchema : AllowedResponse := .empty
deriving DecidableEq, Repr

/-- The arguments of a `compare_institutions` step; an argument that the step
does not have is `none`. -/
structure ToolArguments where
  institutionIds : List Uuid
  reportingPeriodIds : List Uuid
  /-- `semantic_measures`, each with the one key `semantic_measure_code` -/
  semanticMeasures : List String
  reportingBasis : Option RequestedBasis := none
deriving DecidableEq, Repr

/-- The part of `ComparisonRequestDTO` that the compare tool sets. -/
structure ToolRequest where
  institutionIds : List Uuid
  reportingPeriodIds : List Uuid
  semanticMeasures : List String
  reportingBasis : RequestedBasis
deriving DecidableEq, Repr

/-- What a job stores as `normalized_request`: nothing, the document scope of
its creation, or a normalized request. -/
inductive StoredRequest where
  | empty
  | documentScope (ids : List Uuid)
  | normalized (req : NormalizedRequest)
deriving DecidableEq, Repr

/-- It is the request that a run understood. -/
def StoredRequest.isNormalized : StoredRequest → Bool
  | .normalized _ => true
  | _ => false

namespace RequestPlan

/-- The request of a job whose normalizer returned none. -/
def defaultRequest : NormalizedRequest where
  intent := .crossInstitutionComparison
  requestedInstitutions := ["Garanti BBVA", "Akbank"]
  requestedPeriods := ["2025-Q4"]
  requestedSemanticMeasures := ["TOTAL_ASSETS"]

/-- `norm_req`. -/
def normReq (outcome : NormalizationOutcome) : NormalizedRequest :=
  outcome.normalizedRequest.getD defaultRequest

/-- `[...] or [placeholder]`. -/
def orPlaceholder (placeholder : Uuid) (ids : List Uuid) : List Uuid :=
  if ids = [] then [placeholder] else ids

/-- The arguments of the step that `execute_job` plans; `institutions` and
`periods` are the first rows of the tenant, used when nothing was matched. -/
def toolArguments (outcome : NormalizationOutcome) (institutions periods : List Uuid) :
    ToolArguments :=
  let matched := outcome.matchedInstitutionIds ≠ [] ∧ outcome.matchedPeriodIds ≠ []
  let measures := (normReq outcome).requestedSemanticMeasures
  { institutionIds := if matched then outcome.matchedInstitutionIds else
      orPlaceholder 0x11111111111111111111111111111111 institutions
    reportingPeriodIds := if matched then outcome.matchedPeriodIds else
      orPlaceholder 0x22222222222222222222222222222222 periods
    semanticMeasures := if measures = [] then ["TOTAL_ASSETS"] else measures }

/-- `CompareInstitutionsTool.execute`: the request made of the arguments. -/
def toolRequest (args : ToolArguments) : ToolRequest where
  institutionIds := args.institutionIds
  reportingPeriodIds := args.reportingPeriodIds
  semanticMeasures := args.semanticMeasures
  reportingBasis := args.reportingBasis.getD .solo

end RequestPlan

end FinanceIntelligence
