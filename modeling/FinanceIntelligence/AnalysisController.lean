import FinanceIntelligence.EventStream
import FinanceIntelligence.ResumeStore

/-!
# The analysis controller

`AnalysisController` of the mobile client: the state that it shows, its subscription to
the events of an analysis, and the calls that it awaits. A function runs up to its next
`await` in one step and goes on when the answer is there; answers, events, errors and
user actions arrive in any order.

The strings of the controller are Dart's; the texts of a resume record become Dart's
strings where the controller takes them over.
-/

namespace FinanceIntelligence

/-- `AnalysisStatusState`. -/
inductive AnalysisStatusState where
  | idle | submitting | accepted | understanding | planning | executingTools | validatingResults
  | needsClarification | clarificationExpired | clarificationCancelled | completed | cancelled
  | failedRetryable | failedTerminal | reconnecting
deriving DecidableEq

/-- The states in which `_handleDomainEvent` returns at once. -/
def AnalysisStatusState.isTerminal : AnalysisStatusState → Bool
  | .completed | .failedTerminal | .cancelled | .clarificationExpired => true
  | _ => false

/-- A string of Dart. -/
def dartString (s : String) : DartString := utf16 s.toList

/-- `Map<String, dynamic>`. -/
abbrev DartMap (D : DoubleText) := List (DartString × DartJson D)

/-- `AnalysisState`. -/
structure AnalysisState (D : DoubleText) where
  statusState : AnalysisStatusState := .idle
  activeAnalysisId : Option DartString := none
  lastAppliedSequence : ℤ := 0
  lastEventId : Option DartString := none
  userPrompt : Option DartString := none
  errorMessage : Option DartString := none
  warningMessage : Option DartString := none
  resultSnapshot : Option (DartMap D) := none
  clarificationData : Option (DartMap D) := none
  isSubmitting : Bool := false

/-- The arguments of `copyWith`; one that is `null` is `none`. -/
structure AnalysisStateChange (D : DoubleText) where
  statusState : Option AnalysisStatusState := none
  activeAnalysisId : Option DartString := none
  lastAppliedSequence : Option ℤ := none
  lastEventId : Option DartString := none
  userPrompt : Option DartString := none
  errorMessage : Option DartString := none
  warningMessage : Option DartString := none
  resultSnapshot : Option (DartMap D) := none
  clarificationData : Option (DartMap D) := none
  isSubmitting : Option Bool := none

/-- `copyWith`: a field is kept where the argument is `null`. -/
def AnalysisState.copyWith {D : DoubleText} (s : AnalysisState D) (c : AnalysisStateChange D) :
    AnalysisState D where
  statusState := c.statusState.getD s.statusState
  activeAnalysisId := c.activeAnalysisId.or s.activeAnalysisId
  lastAppliedSequence := c.lastAppliedSequence.getD s.lastAppliedSequence
  lastEventId := c.lastEventId.or s.lastEventId
  userPrompt := c.userPrompt.or s.userPrompt
  errorMessage := c.errorMessage.or s.errorMessage
  warningMessage := c.warningMessage.or s.warningMessage
  resultSnapshot := c.resultSnapshot.or s.resultSnapshot
  clarificationData := c.clarificationData.or s.clarificationData
  isSubmitting := c.isSubmitting.getD s.isSubmitting

/-- `_sseSubscription`: the request of `streamEvents`, and how far the stream is. -/
structure EventSubscription (D : DoubleText) where
  /-- the analysis of the request -/
  analysisId : DartString
  /-- the `Last-Event-ID` of the request -/
  lastEventId : Option DartString
  /-- the events of the response that are not yet delivered; `none` before the response -/
  response : Option (List (AnalysisDomainEventModel D)) := none
  /-- the sequences of the events that were delivered -/
  delivered : List ℤ := []
  /-- the stream ended or failed -/
  closed : Bool := false

/-- What the controller was constructed with. -/
structure ControllerConfig where
  /-- `_resumeStore != null` -/
  resumeStore : Bool
  sessionBindingFingerprint : Option String

/-- A call of the resume store. The type of what is written is only known at run time. -/
inductive StoreCall (D : DoubleText) where
  /-- `clearIfSessionMismatch(fingerprint)` -/
  | clearIfSessionMismatch (fingerprint : String)
  /-- `read()` -/
  | read
  /-- `write(map)` -/
  | writeMap (map : DartMap D)
  /-- `updateSequence(sequence, eventId)` -/
  | updateSequence (sequence : ℤ) (eventId : String)
  /-- `markTerminal()` -/
  | markTerminal
  /-- `clear()` -/
  | clear

/-- A function of the controller at an `await`. -/
inductive Pending (D : DoubleText) where
  /-- `submitAnalysis` at `createAnalysis` -/
  | createAnalysis (prompt idempotencyKey : DartString) (documentIds : Option (List DartString))
  /-- `submitAnalysis` at `write` -/
  | writeRecord (analysisId : DartString) (map : DartMap D)
  /-- `fetchClarificationDetails` at `getAnalysisClarification`; `restorePendingAnalysis` may
  await it to subscribe -/
  | clarification (analysisId : DartString) (restored : Option AnalysisResumeRecord)
  /-- `submitClarification` at `respondToClarification` -/
  | respond (analysisId clarificationId idempotencyKey : DartString) (payload : DartMap D)
  /-- `cancelClarification` at `cancelClarification` -/
  | cancelClarification (analysisId clarificationId idempotencyKey : DartString)
  /-- `cancelClarification` at `markTerminal` -/
  | cancelClarificationStored
  /-- `refreshActiveSnapshot` at `getAnalysis` -/
  | snapshot (analysisId : DartString)
  /-- `refreshActiveSnapshot` at `markTerminal` -/
  | snapshotStored (analysisId : DartString)
  /-- `_fetchFinalResult` at `getCompletedResult` -/
  | completedResult (analysisId : DartString)
  /-- `cancelCurrentAnalysis` at `markTerminal` -/
  | cancelStored (analysisId : DartString)
  /-- `cancelCurrentAnalysis` at `cancelAnalysis` -/
  | cancelAnalysis (analysisId : DartString)
  /-- `restorePendingAnalysis` at `clearIfSessionMismatch` -/
  | restoreSession (fingerprint : String)
  /-- `restorePendingAnalysis` at `read` -/
  | restoreRead
  /-- `restorePendingAnalysis` at `getAnalysis` -/
  | restoreJob (record : AnalysisResumeRecord)
  /-- `restorePendingAnalysis` at `markTerminal`, the job is completed -/
  | restoreCompleted (record : AnalysisResumeRecord)
  /-- `restorePendingAnalysis` at `markTerminal`, the job has ended otherwise -/
  | restoreEnded (record : AnalysisResumeRecord) (status : DartString)
  /-- `restorePendingAnalysis` at `clear` -/
  | restoreCleared

/-- The call of the store that is awaited. -/
def Pending.storeCall {D : DoubleText} : Pending D → Option (StoreCall D)
  | .writeRecord _ map => some (.writeMap map)
  | .cancelClarificationStored | .snapshotStored _ | .cancelStored _ | .restoreCompleted _
  | .restoreEnded _ _ => some .markTerminal
  | .restoreSession fingerprint => some (.clearIfSessionMismatch fingerprint)
  | .restoreRead => some .read
  | .restoreCleared => some .clear
  | _ => none

/-- The answer of a call. -/
inductive Reply (D : DoubleText) where
  /-- a job: its id and status -/
  | job (id status : DartString)
  /-- a map -/
  | data (map : DartMap D)
  /-- what `read` returns -/
  | record (record : Option AnalysisResumeRecord)
  /-- nothing -/
  | done
  /-- an exception, and its text -/
  | error (text : DartString)

/-- A call that a function starts. -/
inductive Started (D : DoubleText) where
  /-- it is awaited -/
  | await (pending : Pending D)
  /-- it is a call of the store that is not awaited -/
  | call (call : StoreCall D)

/-- `AnalysisController`. -/
structure AnalysisController (D : DoubleText) where
  state : AnalysisState D := {}
  sseSubscription : Option (EventSubscription D) := none

/-- A function up to its next `await`: the controller after it, and the calls it started. -/
abbrev Outcome (D : DoubleText) := AnalysisController D × List (Started D)

namespace AnalysisController

variable {D : DoubleText}

section

variable (cfg : ControllerConfig) (c : AnalysisController D)

/-- `state = state.copyWith(…)`. -/
def set (change : AnalysisStateChange D) : AnalysisController D :=
  { c with state := c.state.copyWith change }

/-- `if (_resumeStore != null) _resumeStore.markTerminal()`. -/
def markTerminal : List (Started D) := if cfg.resumeStore then [.call .markTerminal] else []

/-- `_subscribeToEvents`. -/
def subscribeToEvents (analysisId : DartString) (lastEventId : Option DartString) :
    AnalysisController D :=
  { c with
    sseSubscription := some { analysisId, lastEventId := lastEventId.or c.state.lastEventId } }

/-- `AnalysisResumeRecordRef.create`, with the defaults of `submitAnalysis`. -/
def dynamicRecord (analysisId : DartString) (fingerprint : String) (now : DartString) : DartMap D :=
  [(dartString "resumeSchemaVersion", .int 1),
    (dartString "analysisId", .str analysisId),
    (dartString "lastAppliedSequence", .int 0),
    (dartString "lastEventId", .null),
    (dartString "lifecycleStatus", .str (dartString "ACCEPTED")),
    (dartString "createdAt", .str now),
    (dartString "lastConnectedAt", .str now),
    (dartString "contractVersion", .str (dartString "3.0.0")),
    (dartString "sessionBindingFingerprint", .str (dartString fingerprint))]

/-! ## What the user does -/

/-- `submitAnalysis`. -/
def submitAnalysis (prompt idempotencyKey : DartString) (documentIds : Option (List DartString)) :
    Outcome D :=
  if c.state.isSubmitting then (c, [])
  else
    (c.set { statusState := some .submitting, userPrompt := some prompt, isSubmitting := some true },
      [.await (.createAnalysis prompt idempotencyKey documentIds)])

/-- `restorePendingAnalysis`. -/
def restorePendingAnalysis : Outcome D :=
  if cfg.resumeStore then
    match cfg.sessionBindingFingerprint with
    | some fingerprint => (c, [.await (.restoreSession fingerprint)])
    | none => (c, [.await .restoreRead])
  else (c, [])

/-- `fetchClarificationDetails`. -/
def fetchClarificationDetails (analysisId : DartString) : Outcome D :=
  (c, [.await (.clarification analysisId none)])

/-- `submitClarification`. -/
def submitClarification (clarificationId idempotencyKey : DartString) (payload : DartMap D) :
    Outcome D :=
  match c.state.activeAnalysisId with
  | none => (c, [])
  | some job =>
    if c.state.isSubmitting then (c, [])
    else
      (c.set { isSubmitting := some true },
        [.await (.respond job clarificationId idempotencyKey payload)])

/-- `cancelClarification`. -/
def cancelClarification (clarificationId idempotencyKey : DartString) : Outcome D :=
  match c.state.activeAnalysisId with
  | none => (c, [])
  | some job => (c, [.await (.cancelClarification job clarificationId idempotencyKey)])

/-- `refreshActiveSnapshot`. -/
def refreshActiveSnapshot : Outcome D :=
  match c.state.activeAnalysisId with
  | none => (c, [])
  | some job => (c, [.await (.snapshot job)])

/-- `cancelCurrentAnalysis`. -/
def cancelCurrentAnalysis : Outcome D :=
  match c.state.activeAnalysisId with
  | none => (c, [])
  | some job =>
    (c.set { statusState := some .cancelled },
      [.await (if cfg.resumeStore then .cancelStored job else .cancelAnalysis job)])

/-! ## What the stream brings -/

/-- `event.sequence.toString()`. -/
def sequenceText (sequence : ℤ) : DartString := utf16 (dumpInt sequence)

/-- The guards of `_handleDomainEvent` before the gap: the event is not returned from. -/
def admits (s : AnalysisState D) (event : AnalysisDomainEventModel D) : Bool :=
  !s.statusState.isTerminal &&
    !(event.analysisId != [] && s.activeAnalysisId != none &&
      some event.analysisId != s.activeAnalysisId) &&
    decide (s.lastAppliedSequence < event.sequence)

/-- The event leaves a gap. -/
def hasGap (s : AnalysisState D) (event : AnalysisDomainEventModel D) : Bool :=
  decide (s.lastAppliedSequence + 1 < event.sequence ∧ 0 < s.lastAppliedSequence)

/-- The `switch` over the type of an event: the new status, a warning, and the calls. -/
def switchEvent (s : AnalysisState D) (event : AnalysisDomainEventModel D) :
    AnalysisStatusState × Option DartString × List (Started D) :=
  match String.ofList event.eventType with
  | "analysis.accepted" => (.accepted, none, [])
  | "analysis.state_changed" => (.understanding, none, [])
  | "analysis.plan_ready" => (.planning, none, [])
  | "analysis.tool_started" => (.executingTools, none, [])
  | "analysis.tool_completed" => (.validatingResults, none, [])
  | "analysis.clarification_required" =>
    (.needsClarification, none, [.await (.clarification event.analysisId none)])
  | "analysis.clarification_received" | "analysis.resumed" => (.understanding, none, [])
  | "analysis.clarification_expired" => (.clarificationExpired, none, markTerminal cfg)
  | "analysis.warning" => (s.statusState, textField event.payload "message", [])
  | "analysis.completed" =>
    (.completed, none, markTerminal cfg ++ [.await (.completedResult event.analysisId)])
  | "analysis.failed" => (.failedTerminal, none, markTerminal cfg)
  | "analysis.cancelled" => (.cancelled, none, markTerminal cfg)
  | _ => (s.statusState, none, [])

/-- `_handleDomainEvent`. -/
def handleDomainEvent (event : AnalysisDomainEventModel D) : Outcome D :=
  if admits c.state event then
    if hasGap c.state event then c.refreshActiveSnapshot
    else
      let (newStatus, warning, calls) := switchEvent cfg c.state event
      (c.set
        { statusState := some newStatus
          lastAppliedSequence := some event.sequence
          lastEventId := some (sequenceText event.sequence)
          warningMessage := warning },
        (if cfg.resumeStore then
          [.call (.updateSequence event.sequence (String.ofList (dumpInt event.sequence)))]
        else []) ++ calls)
  else (c, [])

/-- `onError`. -/
def onError : AnalysisController D :=
  c.set
    { statusState := some .reconnecting
      errorMessage := some (dartString "Bağlantı kesildi, yeniden bağlanılıyor...") }

/-! ## What the answers bring -/

/-- `submitAnalysis` at its `catch`. -/
def submitFailed (text : DartString) : AnalysisController D :=
  c.set
    { statusState := some .failedTerminal
      errorMessage := some text
      isSubmitting := some false }

/-- `submitAnalysis` after `createAnalysis`. -/
def accepted (now id : DartString) : Outcome D :=
  let c := c.set
    { statusState := some .accepted
      activeAnalysisId := some id
      isSubmitting := some false }
  match cfg.resumeStore, cfg.sessionBindingFingerprint with
  | true, some fingerprint => (c, [.await (.writeRecord id (dynamicRecord id fingerprint now))])
  | _, _ => (c.subscribeToEvents id none, [])

/-- `_fetchFinalResult`. -/
def fetchFinalResult (analysisId : DartString) : Outcome D :=
  (c, [.await (.completedResult analysisId)])

/-- The record as the state that `restorePendingAnalysis` shows. -/
def restoreState (statusState : AnalysisStatusState) (record : AnalysisResumeRecord) :
    AnalysisController D :=
  c.set
    { statusState := some statusState
      activeAnalysisId := some (dartString record.analysisId)
      lastAppliedSequence := some record.lastAppliedSequence
      lastEventId := record.lastEventId.map dartString }

/-- `_subscribeToEvents(record.analysisId, lastEventId: record.lastEventId)`. -/
def subscribeToRecord (record : AnalysisResumeRecord) : AnalysisController D :=
  c.subscribeToEvents (dartString record.analysisId) (record.lastEventId.map dartString)

/-- The state of an analysis that has ended without a result. -/
def endedState (status : DartString) : AnalysisStatusState :=
  if status = dartString "CANCELLED" then .cancelled
  else if status = dartString "EXPIRED" then .clarificationExpired
  else .failedTerminal

/-- `restorePendingAnalysis` after `getAnalysis`. -/
def restoreFromJob (record : AnalysisResumeRecord) (status : DartString) : Outcome D :=
  if status = dartString "COMPLETED" then
    (c.restoreState .completed record, [.await (.restoreCompleted record)])
  else if status = dartString "NEEDS_CLARIFICATION" then
    (c.restoreState .needsClarification record,
      [.await (.clarification (dartString record.analysisId) (some record))])
  else if status = dartString "FAILED" ∨ status = dartString "CANCELLED" ∨
      status = dartString "EXPIRED" then
    (c, [.await (.restoreEnded record status)])
  else ((c.restoreState .understanding record).subscribeToRecord record, [])

/-- A function goes on after its `await`; `none` where the answer is not one of its call. -/
def resume (now : DartString) : Pending D → Reply D → Option (Outcome D)
  | .createAnalysis _ _ _, .job id _ => some (c.accepted cfg now id)
  | .createAnalysis _ _ _, .error text => some (c.submitFailed text, [])
  | .writeRecord id _, .done => some (c.subscribeToEvents id none, [])
  | .writeRecord _ _, .error text => some (c.submitFailed text, [])
  | .clarification _ restored, .data map =>
    let c := c.set { clarificationData := some map }
    some (restored.elim c c.subscribeToRecord, [])
  | .clarification _ restored, .error _ => some (restored.elim c c.subscribeToRecord, [])
  | .respond _ _ _ _, .job _ _ =>
    some (c.set { statusState := some .understanding, isSubmitting := some false }, [])
  | .respond _ _ _ _, .error text =>
    some (c.set { isSubmitting := some false, errorMessage := some text }, [])
  | .cancelClarification _ _ _, .job _ _ =>
    some (c.set { statusState := some .cancelled },
      if cfg.resumeStore then [.await .cancelClarificationStored] else [])
  | .cancelClarification _ _ _, .error text => some (c.set { errorMessage := some text }, [])
  | .cancelClarificationStored, .done => some (c, [])
  | .cancelClarificationStored, .error text => some (c.set { errorMessage := some text }, [])
  | .snapshot id, .job _ status =>
    if status = dartString "COMPLETED" then
      let c := c.set { statusState := some .completed }
      if cfg.resumeStore then some (c, [.await (.snapshotStored id)])
      else some (c.fetchFinalResult id)
    else some (c, [])
  | .snapshot _, .error _ => some (c, [])
  | .snapshotStored id, .done => some (c.fetchFinalResult id)
  | .snapshotStored _, .error _ => some (c, [])
  | .completedResult _, .data map => some (c.set { resultSnapshot := some map }, [])
  | .completedResult _, .error text =>
    some (c.set
      { statusState := some .failedTerminal
        errorMessage := some (dartString "Sonuç yüklenemedi: " ++ text) }, [])
  | .cancelStored id, .done => some (c, [.await (.cancelAnalysis id)])
  | .cancelStored _, .error _ => some (c, [])
  | .cancelAnalysis _, .job _ _ | .cancelAnalysis _, .error _ => some (c, [])
  | .restoreSession _, .done => some (c, [.await .restoreRead])
  | .restoreRead, .record none => some (c, [])
  | .restoreRead, .record (some record) => some (c, [.await (.restoreJob record)])
  | .restoreJob record, .job _ status => some (c.restoreFromJob record status)
  | .restoreCompleted record, .done => some (c.fetchFinalResult (dartString record.analysisId))
  | .restoreEnded record status, .done =>
    some (c.set
      { statusState := some (endedState status)
        activeAnalysisId := some (dartString record.analysisId) }, [])
  | .restoreSession _, .error _ | .restoreRead, .error _ | .restoreJob _, .error _
  | .restoreCompleted _, .error _ | .restoreEnded _ _, .error _ =>
    some (c, [.await .restoreCleared])
  | .restoreCleared, .done | .restoreCleared, .error _ => some (c, [])
  | _, _ => none

end

end AnalysisController

/-! ## Runs -/

/-- The controller, and its functions at an `await`. -/
structure ControllerSys (D : DoubleText) where
  controller : AnalysisController D := {}
  /-- the functions at an `await` -/
  pending : List (Pending D) := []

/-- What happens to the controller. -/
inductive ControllerAct (D : DoubleText) where
  /-- the user calls `submitAnalysis` -/
  | submitAnalysis (prompt idempotencyKey : DartString) (documentIds : Option (List DartString))
  /-- the app calls `restorePendingAnalysis` -/
  | restorePendingAnalysis
  /-- the user calls `fetchClarificationDetails` -/
  | fetchClarificationDetails (analysisId : DartString)
  /-- the user calls `submitClarification` -/
  | submitClarification (clarificationId idempotencyKey : DartString) (payload : DartMap D)
  /-- the user calls `cancelClarification` -/
  | cancelClarification (clarificationId idempotencyKey : DartString)
  /-- the user calls `refreshActiveSnapshot` -/
  | refreshActiveSnapshot
  /-- the user calls `cancelCurrentAnalysis` -/
  | cancelCurrentAnalysis
  /-- the answer for the `i`-th function at an `await` -/
  | reply (i : ℕ) (answer : Reply D) (now : DartString)
  /-- the response of the stream begins; it will bring these events -/
  | connect (events : List (AnalysisDomainEventModel D))
  /-- the stream delivers its next event -/
  | event
  /-- the stream fails -/
  | streamError
  /-- the stream ends -/
  | streamDone

namespace ControllerSys

variable {D : DoubleText} (cfg : ControllerConfig)

/-- A function ran up to its next `await`. -/
def perform (s : ControllerSys D) (out : Outcome D) : ControllerSys D where
  controller := out.1
  pending := s.pending ++ out.2.filterMap fun
    | .await p => some p
    | .call _ => none

/-- The subscription that is open. -/
def openSubscription (s : ControllerSys D) : Option (EventSubscription D) :=
  s.controller.sseSubscription.filter fun sub => !sub.closed

/-- The subscription after the stream went on. -/
def onStream (s : ControllerSys D) (sub : EventSubscription D) : AnalysisController D :=
  { s.controller with sseSubscription := some sub }

/-- One step. -/
def step (s : ControllerSys D) : ControllerAct D → Option (ControllerSys D)
  | .submitAnalysis prompt key documentIds =>
    some (s.perform (s.controller.submitAnalysis prompt key documentIds))
  | .restorePendingAnalysis => some (s.perform (s.controller.restorePendingAnalysis cfg))
  | .fetchClarificationDetails id => some (s.perform (s.controller.fetchClarificationDetails id))
  | .submitClarification id key payload =>
    some (s.perform (s.controller.submitClarification id key payload))
  | .cancelClarification id key => some (s.perform (s.controller.cancelClarification id key))
  | .refreshActiveSnapshot => some (s.perform s.controller.refreshActiveSnapshot)
  | .cancelCurrentAnalysis => some (s.perform (s.controller.cancelCurrentAnalysis cfg))
  | .reply i answer now => do
    let p ← s.pending[i]?
    let out ← s.controller.resume cfg now p answer
    return { s with pending := s.pending.eraseIdx i }.perform out
  | .connect events => do
    let sub ← s.openSubscription
    match sub.response with
    | none => return { s with controller := s.onStream { sub with response := some events } }
    | some _ => none
  | .event => do
    let sub ← s.openSubscription
    match sub.response with
    | some (ev :: rest) =>
      let sub := { sub with response := some rest, delivered := sub.delivered ++ [ev.sequence] }
      return s.perform ((s.onStream sub).handleDomainEvent cfg ev)
    | _ => none
  | .streamError => do
    let sub ← s.openSubscription
    return { s with controller := (s.onStream { sub with closed := true }).onError }
  | .streamDone => do
    let sub ← s.openSubscription
    match sub.response with
    | some [] => return { s with controller := s.onStream { sub with closed := true } }
    | _ => none

/-! ### What a step does -/

variable {cfg} {s s' : ControllerSys D}

theorem openSubscription_eq_some {sub : EventSubscription D} : s.openSubscription = some sub ↔
    s.controller.sseSubscription = some sub ∧ sub.closed = false := by
  simp [openSubscription, Option.filter_eq_some_iff]

/-- An answer. -/
theorem step_reply {i : ℕ} {answer : Reply D} {now : DartString}
    (h : s.step cfg (.reply i answer now) = some s') :
    ∃ p out, s.pending[i]? = some p ∧ s.controller.resume cfg now p answer = some out ∧
      s' = { s with pending := s.pending.eraseIdx i }.perform out := by
  obtain ⟨p, hp, h⟩ := Option.bind_eq_some_iff.mp h
  obtain ⟨out, hout, h⟩ := Option.bind_eq_some_iff.mp h
  exact ⟨p, out, hp, hout, (Option.some.inj h).symm⟩

/-- The response of the stream. -/
theorem step_connect {events : List (AnalysisDomainEventModel D)}
    (h : s.step cfg (.connect events) = some s') :
    ∃ sub, s.openSubscription = some sub ∧ sub.response = none ∧
      s' = { s with controller := s.onStream { sub with response := some events } } := by
  obtain ⟨sub, hsub, h⟩ := Option.bind_eq_some_iff.mp h
  split at h
  · exact ⟨sub, hsub, ‹_›, (Option.some.inj h).symm⟩
  · cases h

/-- An event. -/
theorem step_event (h : s.step cfg .event = some s') :
    ∃ sub ev rest, s.openSubscription = some sub ∧ sub.response = some (ev :: rest) ∧
      s' = s.perform ((s.onStream { sub with
        response := some rest, delivered := sub.delivered ++ [ev.sequence] }).handleDomainEvent
          cfg ev) := by
  obtain ⟨sub, hsub, h⟩ := Option.bind_eq_some_iff.mp h
  split at h
  · exact ⟨sub, _, _, hsub, ‹_›, (Option.some.inj h).symm⟩
  · cases h

/-- The stream fails. -/
theorem step_streamError (h : s.step cfg .streamError = some s') :
    ∃ sub, s.openSubscription = some sub ∧
      s' = { s with controller := (s.onStream { sub with closed := true }).onError } := by
  obtain ⟨sub, hsub, h⟩ := Option.bind_eq_some_iff.mp h
  exact ⟨sub, hsub, (Option.some.inj h).symm⟩

/-- The stream ends. -/
theorem step_streamDone (h : s.step cfg .streamDone = some s') :
    ∃ sub, s.openSubscription = some sub ∧ sub.response = some [] ∧
      s' = { s with controller := s.onStream { sub with closed := true } } := by
  obtain ⟨sub, hsub, h⟩ := Option.bind_eq_some_iff.mp h
  split at h
  · exact ⟨sub, hsub, ‹_›, (Option.some.inj h).symm⟩
  · cases h

end ControllerSys

/-! ### The stream of an analysis -/

/-- An event as the server's events are decoded; only the first of them names the analysis. -/
def streamEvent (id : DartString) (sequence : ℕ) (eventType : String) :
    AnalysisDomainEventModel .integral where
  eventType := eventType.toList
  sequence := sequence
  analysisId := if sequence = 1 then id else []
  payload := []

/-- The events of an analysis that is completed. -/
def completedStream (id : DartString) : List (AnalysisDomainEventModel .integral) :=
  [streamEvent id 1 "analysis.accepted", streamEvent id 2 "analysis.state_changed",
    streamEvent id 3 "analysis.plan_ready", streamEvent id 4 "analysis.tool_started",
    streamEvent id 5 "analysis.tool_completed", streamEvent id 6 "analysis.completed"]

/-- An analysis is submitted, and the stream brings some events of it. -/
def submitted (id : DartString) (events : List (AnalysisDomainEventModel .integral)) :
    List (ControllerAct .integral) :=
  [.submitAnalysis (dartString "ROE") (dartString "k") none,
    .reply 0 (.job id (dartString "RECEIVED")) [], .connect events] ++ events.map fun _ => .event

end FinanceIntelligence
