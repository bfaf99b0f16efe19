import Mathlib.Data.List.Basic

/-!
# The analysis job state machine

`AnalysisJobStatus`, the table of valid transitions and the status sets that the
engine's fence and the database functions name.

`validate_transition` is what most writers call before they change a status; `TerminalStatus` is
about those that do not, or call it on a status that has changed since.
-/

namespace FinanceIntelligence

/-- The status of an analysis job. -/
inductive AnalysisJobStatus where
  | received
  | understandingRequest
  | planning
  | policyCheck
  | retrievingInternalSources
  | validatingSources
  | executingTools
  | reconcilingResults
  | generatingStructuredResult
  | qualityGate
  | completed
  | needsClarification
  | rejectedByPolicy
  | failed
  | cancelled
  | expired
  | budgetExceeded
  | awaitingHumanReview
deriving DecidableEq, Repr

namespace AnalysisJobStatus

/-- The text of a status. -/
def value : AnalysisJobStatus → String
  | received => "RECEIVED"
  | understandingRequest => "UNDERSTANDING_REQUEST"
  | planning => "PLANNING"
  | policyCheck => "POLICY_CHECK"
  | retrievingInternalSources => "RETRIEVING_INTERNAL_SOURCES"
  | validatingSources => "VALIDATING_SOURCES"
  | executingTools => "EXECUTING_TOOLS"
  | reconcilingResults => "RECONCILING_RESULTS"
  | generatingStructuredResult => "GENERATING_STRUCTURED_RESULT"
  | qualityGate => "QUALITY_GATE"
  | completed => "COMPLETED"
  | needsClarification => "NEEDS_CLARIFICATION"
  | rejectedByPolicy => "REJECTED_BY_POLICY"
  | failed => "FAILED"
  | cancelled => "CANCELLED"
  | expired => "EXPIRED"
  | budgetExceeded => "BUDGET_EXCEEDED"
  | awaitingHumanReview => "AWAITING_HUMAN_REVIEW"

/-- `TERMINAL_STATES`. -/
def isTerminal : AnalysisJobStatus → Bool
  | completed | rejectedByPolicy | failed | cancelled | expired | budgetExceeded => true
  | _ => false

/-- The statuses in which a worker may write: the list of the engine's fence and
of `renew_analysis_job_lease`. -/
def isWorking : AnalysisJobStatus → Bool
  | received | understandingRequest | planning | policyCheck | retrievingInternalSources
  | validatingSources | executingTools | reconcilingResults | generatingStructuredResult
  | qualityGate => true
  | _ => false

/-- The statuses from which `recover_next_stale_analysis_job` restarts a job. -/
def isRecoverable : AnalysisJobStatus → Bool
  | received | understandingRequest | planning | policyCheck | retrievingInternalSources
  | validatingSources => true
  | _ => false

/-- `VALID_TRANSITIONS`. -/
def validTransitions : AnalysisJobStatus → List AnalysisJobStatus
  | received => [understandingRequest, cancelled]
  | understandingRequest => [needsClarification, planning, rejectedByPolicy, failed, cancelled]
  | needsClarification => [understandingRequest, expired, cancelled, failed]
  | planning => [policyCheck, failed, cancelled]
  | policyCheck => [retrievingInternalSources, rejectedByPolicy, failed, cancelled]
  | retrievingInternalSources => [validatingSources, failed, budgetExceeded, cancelled]
  | validatingSources => [executingTools, needsClarification, failed, cancelled]
  | executingTools => [reconcilingResults, failed, budgetExceeded, cancelled]
  | reconcilingResults => [generatingStructuredResult, failed, cancelled]
  | generatingStructuredResult => [qualityGate, failed, cancelled]
  | qualityGate => [completed, awaitingHumanReview, failed, cancelled]
  | awaitingHumanReview => [completed, rejectedByPolicy, failed, cancelled]
  | _ => []

/-- The code and the message that `validate_transition` raises; `none` if the
transition is valid. -/
def validateTransition (current new : AnalysisJobStatus) : Option (String × String) :=
  if current.isTerminal then
    some ("TERMINAL_STATE_MUTATION_PROHIBITED",
      "Cannot transition from terminal state '" ++ current.value ++ "' to '" ++ new.value ++ "'.")
  else if new ∈ current.validTransitions then none
  else
    some ("INVALID_STATE_TRANSITION",
      "Invalid transition from '" ++ current.value ++ "' to '" ++ new.value ++ "'.")

/-- Terminal statuses have no valid transition. -/
theorem validateTransition_isTerminal {current new : AnalysisJobStatus}
    (h : validateTransition current new = none) : current.isTerminal = false := by
  by_contra hc
  rw [validateTransition, if_pos (eq_true_of_ne_false hc)] at h
  cases h

/-- A job can be cancelled exactly as long as its status is not terminal. -/
theorem validateTransition_cancelled {current : AnalysisJobStatus} :
    validateTransition current cancelled = none ↔ current.isTerminal = false := by
  cases current <;> decide

/-- Only a job that waits for its user expires. -/
theorem validateTransition_expired {current : AnalysisJobStatus} :
    validateTransition current expired = none ↔ current = needsClarification := by
  cases current <;> decide

theorem not_isTerminal_of_isWorking {st : AnalysisJobStatus} (h : st.isWorking = true) :
    st.isTerminal = false := by
  cases st <;> first | rfl | cases h

theorem isWorking_of_isRecoverable {st : AnalysisJobStatus} (h : st.isRecoverable = true) :
    st.isWorking = true := by
  cases st <;> first | rfl | cases h

end AnalysisJobStatus

end FinanceIntelligence
