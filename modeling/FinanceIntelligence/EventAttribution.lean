import FinanceIntelligence.UnderstoodRequest
import FinanceIntelligence.AnalysisCreation
import FinanceIntelligence.EventStream

/-!
# To which analysis the client attributes an event

The client takes the analysis of an event from `analysis_job_id` or `job_id` of its
payload. Of all emitters, the one of `analysis.accepted` alone writes one of these
keys; the clarification service writes `analysisId`, the others write no id, and
their events arrive without one.

* `attributed_iff` — **which events** of a reachable log the client takes for their own job.
-/

namespace FinanceIntelligence

open AnalysisProg AnalysisEventEngine OrchestratorEngine ClaimAuthority ClarificationService

/-! ## What the emitters write -/

/-- The name of an event type. -/
def EventType.name : EventType → String
  | .accepted => "analysis.accepted"
  | .stateChanged => "analysis.state_changed"
  | .planReady => "analysis.plan_ready"
  | .toolStarted => "analysis.tool_started"
  | .toolCompleted => "analysis.tool_completed"
  | .completed => "analysis.completed"
  | .failed => "analysis.failed"
  | .clarificationRequired => "analysis.clarification_required"
  | .clarificationReceived => "analysis.clarification_received"
  | .resumed => "analysis.resumed"
  | .clarificationExpired => "analysis.clarification_expired"

/-- The emitter of `analysis.accepted` writes the id of the job, no other writes a
key that the client reads an id from. -/
def EmittedFor (j : Uuid) (eventType : EventType) (payload : Payload) : Prop :=
  if eventType = .accepted then payload = [("status", .text "RECEIVED"), ("job_id", .uuid j)]
  else ∀ field ∈ payload, field.1 ≠ "analysis_job_id" ∧ field.1 ≠ "job_id"

/-- A statement that appends an event appends one of the emitters. -/
def AppendsEmitted : Stmt → Prop
  | .onJob j (.insertEvent e) => EmittedFor j e.eventType e.payload
  | _ => True

section Emitters

variable {cfg : EngineConfig} {j token attemptId c user : Uuid} {w : String} {α : Type}

theorem emits_event {eventType : EventType} {payload : Payload} {attemptId : Option Uuid}
    (h : EmittedFor j eventType payload) :
    (emitEvent j eventType payload attemptId).WritesOnly AppendsEmitted := by
  rw [emitEvent]
  split
  · trivial
  · exact fun d => writesOnly_execute h

-- from here on an emitter is its lemma
seal emitEvent

theorem emits_advance {current new : AnalysisJobStatus} :
    (advance j current new).WritesOnly AppendsEmitted :=
  writesOnly_advance fun _ => trivial

theorem emits_setAttempt {status : AttemptStatus} :
    (setAttempt j attemptId status).WritesOnly AppendsEmitted :=
  writesOnly_execute trivial

theorem emits_rejectByPolicy : (rejectByPolicy j attemptId).WritesOnly AppendsEmitted := by
  simp only [rejectByPolicy, Prog.bind_eq]
  refine (writesOnly_execute trivial).bind fun _ => ?_
  refine emits_setAttempt.bind fun _ => ?_
  exact (emits_event (by simp [EmittedFor])).bind fun _ => writesOnly_commit

theorem emits_lockJobRows : (lockJobRows j).WritesOnly AppendsEmitted := by
  intro found
  cases found with
  | false => trivial
  | true =>
    intro d
    simp only [Prog.ret_bind]
    generalize d.rows j = row
    cases row <;> trivial

theorem emits_lockClarification : (lockClarification j c).WritesOnly AppendsEmitted := by
  intro found
  cases found with
  | false => trivial
  | true =>
    intro d
    simp only [Prog.ret_bind]
    generalize (d.rows j).bind (fun r => r.clarifications.find? fun x => x.id == c) = clar
    cases clar <;> trivial

theorem emits_requireClarification {outcome : NormalizationOutcome} {attemptNumber : ℕ} :
    (requireClarification j outcome attemptNumber).WritesOnly AppendsEmitted := by
  simp only [requireClarification, Prog.bind_eq]
  refine emits_lockJobRows.bind fun r => ?_
  refine writesOnly_validate.bind fun _ => ?_
  refine writesOnly_select.bind fun d => ?_
  refine (writesOnly_execute trivial).bind fun _ id => ?_
  refine (writesOnly_execute trivial).bind fun _ => ?_
  exact (emits_event (by simp [EmittedFor])).bind fun _ => writesOnly_commit

theorem emits_askClarification {attemptNumber : ℕ} {outcome : NormalizationOutcome} :
    (askClarification j token w attemptNumber outcome).WritesOnly AppendsEmitted := by
  simp only [askClarification, Prog.bind_eq]
  refine writesOnly_fence.bind fun _ => ?_
  exact emits_requireClarification.bind fun _ => trivial

theorem emits_toolStep {args : ToolArguments} :
    (toolStep j token w attemptId args).WritesOnly AppendsEmitted := by
  simp only [toolStep, Prog.bind_eq, Prog.pure_eq]
  refine (emits_event (by simp [EmittedFor])).bind fun _ => ?_
  refine writesOnly_select.bind fun d => ?_
  refine Prog.WritesOnly.bind ?_ fun x => ?_
  · generalize (d.rows j).bind (fun r => checkExistingInvocation r args) = existing
    cases existing with
    | some res => trivial
    | none =>
      simp only [invokeTool, Prog.bind_eq, Prog.pure_eq]
      refine writesOnly_select.bind fun start => ?_
      refine writesOnly_runTool.bind fun res => ?_
      refine writesOnly_select.bind fun d => ?_
      refine writesOnly_fence.bind fun _ => ?_
      exact (writesOnly_execute trivial).bind fun _ => trivial
  · exact (emits_event (by simp [EmittedFor])).bind fun _ => by trivial

theorem emits_complete {res : ToolResult} :
    (complete cfg j token w attemptId res).WritesOnly AppendsEmitted := by
  simp only [complete, Prog.bind_eq]
  refine writesOnly_fence.bind fun _ => ?_
  refine emits_advance.bind fun _ => ?_
  refine emits_advance.bind fun _ => ?_
  refine (writesOnly_call _).bind fun contentText => ?_
  split
  · trivial
  · refine writesOnly_fence.bind fun _ => ?_
    refine emits_advance.bind fun _ => ?_
    split
    · trivial
    · refine (writesOnly_execute trivial).bind fun _ => ?_
      refine writesOnly_fence.bind fun _ => ?_
      refine writesOnly_validate.bind fun _ => ?_
      refine writesOnly_select.bind fun d => ?_
      refine (writesOnly_updateWhere fun _ => trivial).bind fun updated => ?_
      split
      · trivial
      · refine emits_setAttempt.bind fun _ id => ?_
        refine (writesOnly_execute trivial).bind fun _ => ?_
        exact (emits_event (by simp [EmittedFor])).bind fun _ => writesOnly_commit

theorem emits_planArguments {outcome : NormalizationOutcome} :
    (planArguments outcome).WritesOnly AppendsEmitted := by
  rw [planArguments]
  split
  · exact (writesOnly_call _).bind fun _ => (writesOnly_call _).bind fun _ => trivial
  · trivial

theorem emits_runPlan {classification : DataClassification} {outcome : NormalizationOutcome} :
    (runPlan cfg classification j token w attemptId outcome).WritesOnly AppendsEmitted := by
  simp only [runPlan, Prog.bind_eq]
  refine (writesOnly_execute trivial).bind fun _ => ?_
  refine (writesOnly_call _).bind fun _ => ?_
  refine writesOnly_fence.bind fun _ => ?_
  refine emits_advance.bind fun _ => ?_
  refine (emits_event (by simp [EmittedFor])).bind fun _ => ?_
  refine emits_planArguments.bind fun args => ?_
  refine (writesOnly_execute trivial).bind fun _ => ?_
  refine writesOnly_fence.bind fun _ => ?_
  refine emits_advance.bind fun _ => ?_
  refine (writesOnly_execute trivial).bind fun _ => ?_
  split
  · exact writesOnly_fence.bind fun _ => emits_rejectByPolicy
  · refine writesOnly_fence.bind fun _ => ?_
    refine emits_advance.bind fun _ => ?_
    refine emits_advance.bind fun _ => ?_
    refine emits_advance.bind fun _ => ?_
    exact emits_toolStep.bind fun _ => emits_complete

/-- The run, whose first event is the accepted one. -/
theorem emits_runJob {classification : DataClassification} {status : AnalysisJobStatus}
    {attemptNumber : ℕ} :
    (runJob cfg classification j token w status attemptId attemptNumber).WritesOnly
      AppendsEmitted := by
  simp only [runJob, Prog.bind_eq]
  refine writesOnly_fence.bind fun _ => ?_
  refine (emits_event (by simp [EmittedFor])).bind fun _ => ?_
  refine writesOnly_fence.bind fun _ => ?_
  refine emits_advance.bind fun _ => ?_
  refine (emits_event (by simp [EmittedFor])).bind fun _ => ?_
  split
  · refine writesOnly_fence.bind fun _ => ?_
    exact (writesOnly_execute trivial).bind fun _ => emits_rejectByPolicy
  · refine (writesOnly_call _).bind fun outcome => ?_
    split
    · exact emits_askClarification
    · exact emits_runPlan

theorem emits_onException {x : Exc} :
    (onException j token w attemptId x).WritesOnly AppendsEmitted := by
  have hpersist : (persistFailure j token w attemptId x).WritesOnly AppendsEmitted := by
    simp only [persistFailure, Prog.bind_eq]
    refine writesOnly_fence.bind fun _ => ?_
    refine (writesOnly_updateWhere fun _ => trivial).bind fun updated => ?_
    split
    · trivial
    · refine writesOnly_select.bind fun d => ?_
      have hevent : ∀ attemptId,
          (emitEvent j .failed (failurePayload x) attemptId).WritesOnly AppendsEmitted :=
        fun _ => emits_event (by simp [EmittedFor, failurePayload])
      split
      · exact emits_setAttempt.bind fun _ => (hevent _).bind fun _ => writesOnly_commit
      · exact (hevent _).bind fun _ => writesOnly_commit
  simp only [onException, Prog.bind_eq]
  refine Prog.WritesOnly.bind (by trivial) fun _ => ?_
  cases x with
  | claimOwnershipLost => trivial
  | _ =>
    refine Prog.WritesOnly.bind (hpersist.tryCatch fun y => ?_) fun _ => trivial
    cases y <;> trivial

theorem emits_executeJob {classification : DataClassification} :
    (executeJob cfg classification j token w).WritesOnly AppendsEmitted := by
  simp only [executeJob, Prog.bind_eq]
  refine Prog.WritesOnly.bind (by trivial) fun _ => ?_
  refine writesOnly_fence.bind fun _ => ?_
  intro owned
  cases owned with
  | false => trivial
  | true =>
    intro d
    simp only [Prog.ret_bind]
    generalize d.rows j = row
    cases row with
    | none => trivial
    | some r =>
      intro i
      refine (writesOnly_execute trivial).bind fun _ => ?_
      exact emits_runJob.tryCatch fun _ => emits_onException

theorem emits_respond {payload : List (String × String)} :
    (respond j c user payload).WritesOnly AppendsEmitted := by
  simp only [respond, Prog.bind_eq]
  refine emits_lockJobRows.bind fun r => ?_
  split
  · trivial
  split
  · trivial
  refine emits_lockClarification.bind fun clar => ?_
  split
  · trivial
  · trivial
  · trivial
  · refine writesOnly_select.bind fun d => ?_
    split
    · refine (writesOnly_execute trivial).bind fun _ => ?_
      refine (writesOnly_execute trivial).bind fun _ => ?_
      exact writesOnly_commit.bind fun _ => trivial
    · refine (writesOnly_call _).bind fun valid => ?_
      split
      · trivial
      · refine (writesOnly_execute trivial).bind fun _ id => ?_
        refine (writesOnly_execute trivial).bind fun _ => ?_
        refine (writesOnly_execute trivial).bind fun _ => ?_
        refine writesOnly_validate.bind fun _ => ?_
        refine (writesOnly_execute trivial).bind fun _ => ?_
        refine (emits_event (by simp [EmittedFor])).bind fun _ => ?_
        exact (emits_event (by simp [EmittedFor])).bind fun _ => writesOnly_commit

theorem emits_cancel : (ClarificationService.cancel j c user).WritesOnly AppendsEmitted := by
  simp only [ClarificationService.cancel, Prog.bind_eq]
  refine emits_lockJobRows.bind fun r => ?_
  split
  · trivial
  · refine emits_lockClarification.bind fun clar => ?_
    refine writesOnly_select.bind fun d => ?_
    refine writesOnly_validate.bind fun _ => ?_
    refine (writesOnly_execute trivial).bind fun _ => ?_
    exact (writesOnly_execute trivial).bind fun _ => writesOnly_commit

theorem emits_expireClarification : (expireClarification j c).WritesOnly AppendsEmitted := by
  intro found
  cases found with
  | false => trivial
  | true =>
    intro d
    simp only [Prog.ret_bind, Prog.bind_eq]
    refine Prog.WritesOnly.bind (writesOnly_execute trivial) fun _ => ?_
    refine Prog.WritesOnly.bind ?_ fun _ => emits_event (by simp [EmittedFor])
    rw [expireJob]
    split
    · trivial
    · exact writesOnly_validate.bind fun _ => writesOnly_execute trivial

theorem emits_expireDueClarifications {batchSize : ℕ} :
    (expireDueClarifications batchSize).WritesOnly AppendsEmitted := by
  have hbatch : ∀ l, (expireClarifications l).WritesOnly AppendsEmitted := by
    intro l
    induction l with
    | nil => trivial
    | cons x l ih =>
      cases x with
      | clarification j c => exact emits_expireClarification.bind fun _ => ih
      | job j => exact ih
  intro l
  refine (hbatch l).bind fun _ => ?_
  split
  · exact writesOnly_commit
  · trivial

theorem emits_claim : (claimNextAnalysisJob w).WritesOnly AppendsEmitted := by
  rw [claimNextAnalysisJob]
  split
  · trivial
  · rintro (_ | ⟨_ | _, l⟩)
    · trivial
    · exact fun i d => (writesOnly_execute trivial).bind fun _ => trivial
    · trivial

theorem emits_recover : (recoverNextStaleAnalysisJob w).WritesOnly AppendsEmitted := by
  rw [recoverNextStaleAnalysisJob]
  split
  · trivial
  · rintro (_ | ⟨_ | _, l⟩)
    · trivial
    · refine Prog.WritesOnly.bind (writesOnly_execute trivial) fun _ i d => ?_
      exact (writesOnly_execute trivial).bind fun _ => trivial
    · trivial

/-- **Every call** appends what the emitters write. -/
theorem emits_body (cfg : EngineConfig) (call : AnalysisCall) :
    ((analysisModel cfg).body call).WritesOnly AppendsEmitted := by
  cases call with
  | createAnalysis user prompt key documents =>
    refine (writesOnly_createAnalysis user prompt key documents).mono fun s hs => ?_
    obtain ⟨id, job, rfl⟩ := hs
    trivial
  | cancelAnalysis j user =>
    intro d
    simp only [Prog.ret_bind]
    generalize d.rows j = row
    cases row with
    | none => trivial
    | some r =>
      simp only
      split
      · trivial
      · refine writesOnly_validate.bind fun _ => ?_
        exact (writesOnly_execute trivial).bind fun _ => writesOnly_commit
  | saveAnalysis j summary =>
    intro d
    simp only [Prog.ret_bind]
    generalize d.rows j = row
    cases row with
    | none => trivial
    | some r =>
      intro i
      refine (writesOnly_execute trivial).bind fun _ => ?_
      exact (writesOnly_execute trivial).bind fun _ => writesOnly_commit
  | runOnce w =>
    refine Prog.WritesOnly.bind emits_claim fun claimed => ?_
    refine Prog.WritesOnly.bind writesOnly_commit fun _ => ?_
    cases claimed with
    | some x => exact emits_executeJob
    | none =>
      refine Prog.WritesOnly.bind emits_recover fun recovered => ?_
      refine Prog.WritesOnly.bind writesOnly_commit fun _ => ?_
      cases recovered with
      | some x => exact emits_executeJob
      | none => trivial
  | executeJob classification j token w => exact emits_executeJob
  | renewLease j token w =>
    simp only [analysisModel, renewAnalysisJobLease, Prog.bind_eq]
    split
    · intro owned
      cases owned with
      | false => exact writesOnly_commit
      | true => exact fun d => (writesOnly_execute trivial).bind fun _ => writesOnly_commit
    · exact writesOnly_commit
  | respond j c user payload => exact emits_respond
  | cancelClarification j c user => exact emits_cancel
  | expireDueClarifications batchSize => exact emits_expireDueClarifications

/-- The log of a job holds events of its emitters. -/
def LogEmitted (d : AnalysisDb) : Prop :=
  ∀ j r, d.rows j = some r → ∀ e ∈ r.events, EmittedFor j e.eventType e.payload

theorem LogEmitted.view {d : AnalysisDb} (h : LogEmitted d) {l : List Stmt}
    (hl : ∀ s ∈ l, AppendsEmitted s) : LogEmitted (analysisSchema.view l d) := by
  induction l generalizing d with
  | nil => exact h
  | cons s l ih =>
    refine ih ?_ fun x hx => hl x (List.mem_cons_of_mem s hx)
    have hs := hl s List.mem_cons_self
    intro j r hr e he
    cases s with
    | createJob id job =>
      simp only [analysisSchema] at hr
      by_cases hj : j = id
      · subst hj
        simp only [AnalysisDb.setRows, if_true] at hr
        obtain rfl := Option.some.inj hr
        cases he
      · simp only [AnalysisDb.setRows, if_neg hj] at hr
        exact h j r hr e he
    | onJob id w =>
      simp only [analysisSchema] at hr
      split at hr
      · rename_i r₀ hr₀
        by_cases hj : j = id
        · subst hj
          simp only [AnalysisDb.setRows, if_true] at hr
          obtain rfl := Option.some.inj hr
          cases w with
          | insertEvent x =>
            rcases List.mem_append.mp he with he | he
            · exact h j r₀ hr₀ e he
            · obtain rfl := List.mem_singleton.mp he
              exact hs
          | _ => exact h j r₀ hr₀ e he
        · simp only [AnalysisDb.setRows, if_neg hj] at hr
          exact h j r hr e he
      · exact h j r hr e he

/-- **The log**, in every run. -/
theorem logEmitted {cfg : EngineConfig} {now : ℕ} {s : AnalysisSys}
    (h : AnalysisReachable cfg now s) : LogEmitted s.db := by
  refine h.invariant (P := fun s => LogEmitted s.db) (fun j r hr => (by cases hr)) ?_
  intro s s' a h ih _ hs
  rcases (analysis_safe h).step_db hs with hdb | ⟨e, -, hdb⟩ | ⟨pr, ha, hview, -⟩
  · rw [hdb]
    exact ih
  · rw [hdb]
    exact ih
  · obtain ⟨p, i, rfl, hp, -⟩ := ha
    rw [hview]
    exact LogEmitted.view ih (h.writesOnly (P := fun _ => AppendsEmitted) (emits_body cfg) p pr hp).2

end Emitters

/-! ## What the client makes of it -/

section Client

variable {D : DoubleText} {timeText : ℕ → String} {j : Uuid}

/-- A value of a payload as JSON; `timeText` prints a time. -/
def PayloadValue.toJson (timeText : ℕ → String) : PayloadValue → PyJson D
  | .text s => .str s.toList
  | .texts l => .arr (l.map fun s => .str s.toList)
  | .number n => .int n
  | .uuid id => .str (uuidText id).toList
  | .time t => .str (timeText t).toList

/-- A payload as JSON. -/
def payloadJson (timeText : ℕ → String) (payload : Payload) : List (List Char × PyJson D) :=
  payload.map fun (k, v) => (k.toList, v.toJson timeText)

/-- The row of an event, as the stream reads it. -/
structure AnalysisEvent.StoredAs (timeText : ℕ → String) (e : AnalysisEvent) (ev : ServerEvent D) :
    Prop where
  eventType : ev.eventType = e.eventType.name
  sequence : ev.sequence = e.sequence
  /-- `payload_json` -/
  payload : ev.payload = payloadJson timeText e.payload

theorem EventType.name_allowed (t : EventType) : t.name ∈ allowedEvents := by
  cases t <;> decide

theorem toDartFields_eq_map (l : List (List Char × PyJson D)) :
    Json.toDartFields l = l.map fun f => (utf16 f.1, f.2.toDart) := by
  induction l with
  | nil => rfl
  | cons f l ih => rw [Json.toDartFields, ih, List.map_cons]

/-- A key that no field has. -/
theorem textField_eq_none {payload : Payload} {key : String} (h : ∀ f ∈ payload, f.1 ≠ key) :
    textField (Json.toDartFields (payloadJson (D := D) timeText payload)) key = none := by
  have hfind : (Json.toDartFields (payloadJson (D := D) timeText payload)).find?
      (fun f => f.1 == utf16 key.toList) = none := by
    refine List.find?_eq_none.mpr fun f hf heq => ?_
    rw [toDartFields_eq_map] at hf
    obtain ⟨g, hg, rfl⟩ := List.mem_map.mp hf
    obtain ⟨⟨k, v⟩, hkv, rfl⟩ := List.mem_map.mp hg
    exact h _ hkv (String.toList_inj.mp (utf16_injective (beq_iff_eq.mp heq)))
  rw [textField, hfind]

/-- The id that the client reads from the payload of an emitter. -/
theorem analysisIdOf_emitted {eventType : EventType} {payload : Payload}
    (h : EmittedFor j eventType payload) :
    AnalysisDomainEventModel.analysisIdOf
        (Json.toDartFields (payloadJson (D := D) timeText payload)) =
      if eventType = .accepted then utf16 (uuidText j).toList else [] := by
  rw [EmittedFor] at h
  split at h
  · rename_i haccepted
    subst h
    have hstatus : (utf16 ['s', 't', 'a', 't', 'u', 's'] ==
        utf16 ['j', 'o', 'b', '_', 'i', 'd']) = false := by decide
    have hnone : textField (Json.toDartFields (payloadJson (D := D) timeText
        [("status", .text "RECEIVED"), ("job_id", .uuid j)])) "analysis_job_id" = none :=
      textField_eq_none (by simp)
    have hid : textField (Json.toDartFields (payloadJson (D := D) timeText
        [("status", .text "RECEIVED"), ("job_id", .uuid j)])) "job_id" =
          some (utf16 (uuidText j).toList) := by
      simp [textField, payloadJson, toDartFields_eq_map, hstatus, PayloadValue.toJson, Json.toDart, Json.dartText]
    rw [AnalysisDomainEventModel.analysisIdOf, hnone, hid, if_pos haccepted]
    rfl
  · rename_i hother
    rw [AnalysisDomainEventModel.analysisIdOf, textField_eq_none fun f hf => (h f hf).1,
      textField_eq_none fun f hf => (h f hf).2, if_neg hother]
    rfl

/-- The text of an id is not empty. -/
theorem utf16_uuidText_ne_nil : utf16 (uuidText j).toList ≠ [] := by
  intro h
  have hempty : (uuidText j).toList = [] := utf16_injective (h.trans (by rfl))
  simp [uuidText] at hempty

/-- An event of a run, as the client decodes it from any chunks. -/
theorem decode_emitted {cfg : EngineConfig} {now : ℕ} {s : AnalysisSys}
    (h : AnalysisReachable cfg now s) {r : JobRows} (hr : s.db.rows j = some r)
    {e : AnalysisEvent} (he : e ∈ r.events) {ev : ServerEvent D} (hev : e.StoredAs timeText ev)
    {chunks : List (List ℕ)} (hchunks : chunks.flatten = streamAnalysisEvents [ev]) :
    ({} : AnalysisSseClient).streamEvents D chunks = ([ev.toClient], true) ∧
      ev.toClient.analysisId =
        if e.eventType = .accepted then utf16 (uuidText j).toList else [] := by
  refine ⟨?_, ?_⟩
  · refine streamEvents_of_allowed (fun x hx => ?_) hchunks
    obtain rfl := List.mem_singleton.mp hx
    rw [hev.eventType]
    exact EventType.name_allowed _
  · rw [ServerEvent.toClient, hev.payload]
    exact analysisIdOf_emitted (logEmitted h j r hr e he)

/-- **Attribution**. The client takes an event for one of the job that it is of
exactly when it is `analysis.accepted`; every other event arrives without an id. -/
theorem attributed_iff (cfg : EngineConfig) (D : DoubleText) (timeText : ℕ → String) (now : ℕ)
    (s : AnalysisSys) (h : AnalysisReachable cfg now s) (j : Uuid) (r : JobRows)
    (hr : s.db.rows j = some r) (e : AnalysisEvent) (he : e ∈ r.events) (ev : ServerEvent D)
    (hev : e.StoredAs timeText ev) (chunks : List (List ℕ))
    (hchunks : chunks.flatten = streamAnalysisEvents [ev]) :
    ∃ m, ({} : AnalysisSseClient).streamEvents D chunks = ([m], true) ∧
      (m.analysisId = utf16 (uuidText j).toList ↔ e.eventType = .accepted) ∧
      (e.eventType ≠ .accepted → m.analysisId = []) := by
  obtain ⟨hdecoded, hid⟩ := decode_emitted h hr he hev hchunks
  refine ⟨ev.toClient, hdecoded, ?_, fun hne => by rw [hid, if_neg hne]⟩
  rw [hid]
  split
  · rename_i haccepted
    exact iff_of_true rfl haccepted
  · rename_i hother
    exact iff_of_false utf16_uuidText_ne_nil.symm hother

/-! ## A run -/

deriving instance DecidableEq for PayloadValue, AnalysisEvent

/-- An analysis that is created and completed. -/
def completedRun : List (Act Answer AnalysisCall ℕ) :=
  Model.serve 0 (.createAnalysis 5 "Akbank 2025-Q4 toplam aktifler" none []) 5 { uuid := 7 } ++
    Model.serve 1 (.runOnce "w") 62
      { uuid := 9
        normalization := assetsUnderstood
        contentText := some ""
        tool := { result := some ⟨some 0x4711⟩ } }

/-- Its first and its last event. -/
theorem completedRun_events : ∃ s r, AnalysisReachable ⟨.ascii⟩ 100 s ∧
    s.db.rows 7 = some r ∧
    ⟨1, .accepted, some 9, [("status", .text "RECEIVED"), ("job_id", .uuid 7)]⟩ ∈ r.events ∧
    ⟨6, .completed, some 9, [("snapshot_id", .uuid 9), ("completed_at", .time 100)]⟩ ∈ r.events := by
  have hrun : ((((analysisModel ⟨.ascii⟩).run completedRun
      (Model.idle (emptyAnalysisDb 100))).bind fun s => s.db.rows 7).map fun r =>
        (r.events.head?, r.events.getLast?)) = some
      (some ⟨1, .accepted, some 9, [("status", .text "RECEIVED"), ("job_id", .uuid 7)]⟩,
        some ⟨6, .completed, some 9, [("snapshot_id", .uuid 9), ("completed_at", .time 100)]⟩) := by
    decide +kernel
  obtain ⟨r, hr, hends⟩ := Option.map_eq_some_iff.mp hrun
  obtain ⟨s, hs, hr⟩ := Option.bind_eq_some_iff.mp hr
  obtain ⟨hfirst, hlast⟩ := Prod.mk.inj hends
  exact ⟨s, r, Model.ReachableBy.later .start (Model.LaterBy.of_runBy (fun _ _ _ => trivial) hs), hr,
    List.mem_of_mem_head? hfirst, List.mem_of_getLast? hlast⟩

/-- The first event, sent in one piece. -/
theorem attributed_accepted : ∃ s r e, AnalysisReachable ⟨.ascii⟩ 100 s ∧
    s.db.rows 7 = some r ∧ e ∈ r.events ∧ ∃ (ev : ServerEvent .integral) (m : _),
      e.StoredAs (fun _ => "") ev ∧
      ({} : AnalysisSseClient).streamEvents .integral [streamAnalysisEvents [ev]] = ([m], true) ∧
      m.analysisId = utf16 (uuidText 7).toList := by
  obtain ⟨s, r, h, hr, hfirst, -⟩ := completedRun_events
  let ev : ServerEvent .integral :=
    { eventType := "analysis.accepted"
      sequence := 1
      payload := payloadJson (fun _ => "") [("status", .text "RECEIVED"), ("job_id", .uuid 7)]
      sequence_lt := by decide
      payload_wf := ⟨by decide, trivial, trivial, trivial⟩ }
  obtain ⟨m, hm, hid, -⟩ := attributed_iff ⟨.ascii⟩ .integral (fun _ => "") 100 s h 7 r hr _
    hfirst ev ⟨rfl, rfl, rfl⟩ [streamAnalysisEvents [ev]] (List.append_nil _)
  exact ⟨s, r, _, h, hr, hfirst, ev, m, ⟨rfl, rfl, rfl⟩, hm, hid.mpr rfl⟩

/-- The completed event arrives without an id. -/
theorem not_attributed :
    ¬ ∀ (cfg : EngineConfig) (D : DoubleText) (timeText : ℕ → String) (now : ℕ) (s : AnalysisSys),
      AnalysisReachable cfg now s → ∀ (j : Uuid) (r : JobRows), s.db.rows j = some r →
        ∀ e ∈ r.events, ∀ ev : ServerEvent D, e.StoredAs timeText ev → ∀ chunks : List (List ℕ),
          chunks.flatten = streamAnalysisEvents [ev] →
            ∀ m, ({} : AnalysisSseClient).streamEvents D chunks = ([m], true) →
              m.analysisId = utf16 (uuidText j).toList := by
  intro hclaim
  obtain ⟨s, r, h, hr, -, hlast⟩ := completedRun_events
  let ev : ServerEvent .integral :=
    { eventType := "analysis.completed"
      sequence := 6
      payload := payloadJson (fun _ => "") [("snapshot_id", .uuid 9), ("completed_at", .time 100)]
      sequence_lt := by decide
      payload_wf := ⟨by decide, trivial, trivial, trivial⟩ }
  have hchunks : [streamAnalysisEvents [ev]].flatten = streamAnalysisEvents [ev] :=
    List.append_nil _
  have hdecode := fun hstored : AnalysisEvent.StoredAs (fun _ => "") _ ev =>
    decode_emitted h hr hlast hstored hchunks
  obtain ⟨hdecoded, hid⟩ := hdecode ⟨rfl, rfl, rfl⟩
  have heq := hclaim ⟨.ascii⟩ .integral (fun _ => "") 100 s h 7 r hr _ hlast ev
    ⟨rfl, rfl, rfl⟩ [streamAnalysisEvents [ev]] (List.append_nil _) _ hdecoded
  rw [hid, if_neg (by decide)] at heq
  exact utf16_uuidText_ne_nil heq.symm

end Client

end FinanceIntelligence
