import FinanceIntelligence.AnalysisController
import FinanceIntelligence.StepRuns
import Mathlib.Data.List.Range

/-!
# What the controller applies

Runs of the controller over several analyses and several requests for one stream, with a
history of the events that it applied. The log of an analysis numbers its events from 1;
a response brings consecutive events of it, the first of them no later than the one after
the `Last-Event-ID` of the request.

* `events_appliedOnce` — the events of the active analysis are **applied once each, in order**, as
  long as every answer fits what was applied before (`KeepsCount`).
* `events_not_appliedOnce` — a second analysis that goes on counting where the first one was
  **loses** its first events.
-/

namespace FinanceIntelligence

variable {D : DoubleText}

/-- The events of the analyses. -/
structure EventLogs (D : DoubleText) where
  /-- the event of an analysis with a sequence -/
  event : DartString → ℕ → AnalysisDomainEventModel D
  /-- it has the sequence -/
  sequence_eq : ∀ id k, (event id k).sequence = k
  /-- it names its analysis or none -/
  analysisId_eq : ∀ id k, (event id k).analysisId = [] ∨ (event id k).analysisId = id

/-- `last_seq`, for a header of ASCII characters. -/
def lastSequence : Option DartString → ℕ
  | none => 0
  | some text =>
    if text ≠ [] ∧ ∀ u ∈ text, 48 ≤ u ∧ u ≤ 57 then text.foldl (fun n u => 10 * n + (u - 48)) 0
    else 0

/-- Consecutive events, from `start` on. -/
def EventLogs.from (logs : EventLogs D) (id : DartString) (start n : ℕ) :
    List (AnalysisDomainEventModel D) :=
  (List.range' start n).map (logs.event id)

/-- The controller, and what it has applied: of which stream, and with which sequence. -/
structure AppliedSys (D : DoubleText) where
  /-- the controller -/
  sys : ControllerSys D := {}
  /-- what was applied, in this order; at the start, before the app was restarted -/
  applied : List (DartString × ℤ)

namespace AppliedSys

variable (cfg : ControllerConfig)

/-- The sequences that were applied of an analysis. -/
def appliedOf (x : AppliedSys D) (id : DartString) : List ℤ :=
  (x.applied.filter fun a => a.1 == id).map (·.2)

/-- How many events of an analysis were applied. -/
def count (x : AppliedSys D) (id : DartString) : ℕ := (x.appliedOf id).length

/-- `_handleDomainEvent` applies the event. -/
def applies (s : AnalysisState D) (event : AnalysisDomainEventModel D) : Bool :=
  AnalysisController.admits s event && !AnalysisController.hasGap s event

/-- What the next event adds to the history. -/
def appliedNext (s : ControllerSys D) : List (DartString × ℤ) :=
  match s.openSubscription with
  | some { analysisId, response := some (event :: _), .. } =>
    if applies s.controller.state event then [(analysisId, event.sequence)] else []
  | _ => []

/-- One step. -/
def step (x : AppliedSys D) (act : ControllerAct D) : Option (AppliedSys D) :=
  (x.sys.step cfg act).map fun sys =>
    { sys
      applied := match act with
        | .event => x.applied ++ appliedNext x.sys
        | _ => x.applied }

end AppliedSys

/-- A response brings consecutive events of its analysis. -/
def Served (logs : EventLogs D) (x : AppliedSys D) : ControllerAct D → Prop
  | .connect events => ∀ sub, x.sys.openSubscription = some sub → ∃ start n, 1 ≤ start ∧
    start ≤ lastSequence sub.lastEventId + 1 ∧ events = logs.from sub.analysisId start n
  | _ => True

/-- The sequences 1, 2, … were applied of every analysis, each once. -/
def InOrder (x : AppliedSys D) : Prop :=
  ∀ id, x.appliedOf id = (List.range' 1 (x.count id)).map Nat.cast

/-- **Exactly once.** Of the active analysis the sequences 1, 2, … were applied, each once, and
among them are all that its stream has delivered. -/
def ExactlyOnce (x : AppliedSys D) : Prop :=
  ∀ id, x.sys.controller.state.activeAnalysisId = some id →
    x.appliedOf id = (List.range' 1 (x.count id)).map Nat.cast ∧
    ∀ sub, x.sys.openSubscription = some sub → sub.analysisId = id →
      ∀ k ∈ sub.delivered, k ∈ x.appliedOf id

/-! ## The condition -/

section

variable (x : AppliedSys D)

/-- The state goes on where the analysis is: at the number of its applied events, and no request
asks for later ones. -/
def Fits (id : DartString) (sequence : ℤ) (lastEventId : Option DartString) : Prop :=
  sequence = x.count id ∧ lastSequence lastEventId ≤ x.count id

/-- A stream of the analysis that is still open was one of the active analysis. -/
def NoStaleStream (id : DartString) : Prop :=
  ∀ sub, x.sys.openSubscription = some sub → sub.analysisId = id →
    x.sys.controller.state.activeAnalysisId = some id

/-- An answer by which an analysis becomes the active one, or its stream is requested, comes where
the state, or the record that is restored, goes on where the analysis is. -/
def AnswerFits (cfg : ControllerConfig) : Pending D → Reply D → Prop
  | .createAnalysis _ _ _, .job id _ =>
    if cfg.resumeStore = true ∧ cfg.sessionBindingFingerprint.isSome = true then NoStaleStream x id
    else Fits x id x.sys.controller.state.lastAppliedSequence x.sys.controller.state.lastEventId
  | .writeRecord id _, .done => x.sys.controller.state.activeAnalysisId = some id →
    Fits x id x.sys.controller.state.lastAppliedSequence x.sys.controller.state.lastEventId
  | .clarification _ (some record), _ =>
    x.sys.controller.state.activeAnalysisId = some (dartString record.analysisId) →
      Fits x (dartString record.analysisId) x.sys.controller.state.lastAppliedSequence
        ((record.lastEventId.map dartString).or x.sys.controller.state.lastEventId)
  | .restoreJob record, .job _ status =>
    if status = dartString "COMPLETED" ∨ status = dartString "NEEDS_CLARIFICATION" then
      ∀ sub, x.sys.openSubscription = some sub → sub.analysisId = dartString record.analysisId →
        x.sys.controller.state.activeAnalysisId = some (dartString record.analysisId) ∧
          record.lastAppliedSequence = x.count (dartString record.analysisId)
    else if status = dartString "FAILED" ∨ status = dartString "CANCELLED" ∨
        status = dartString "EXPIRED" then True
    else
      Fits x (dartString record.analysisId) record.lastAppliedSequence
        ((record.lastEventId.map dartString).or x.sys.controller.state.lastEventId)
  | .restoreEnded record _, .done => NoStaleStream x (dartString record.analysisId)
  | _, _ => True

/-- **The condition.** Answers fit; an event of the active analysis that is new does not come in a
terminal state; and an event of another stream is not applied. -/
def KeepsCount (cfg : ControllerConfig) : ControllerAct D → Prop
  | .reply i answer _ => ∀ p ∈ x.sys.pending[i]?, AnswerFits x cfg p answer
  | .event => ∀ sub ev rest, x.sys.openSubscription = some sub →
    sub.response = some (ev :: rest) →
    if x.sys.controller.state.activeAnalysisId = some sub.analysisId then
      x.sys.controller.state.statusState.isTerminal = true →
        ev.sequence ≤ x.sys.controller.state.lastAppliedSequence
    else AppliedSys.applies x.sys.controller.state ev = false
  | _ => True

end

/-! ## The functions -/

section

variable {cfg : ControllerConfig} {logs : EventLogs D} {x x' : AppliedSys D} {id : DartString}

/-- What an answer that fits does. -/
inductive Moved (x : AppliedSys D) (out : Outcome D) : Prop
  /-- the analysis, its sequence and the subscription are what they were -/
  | keeps (hactive : out.1.state.activeAnalysisId = x.sys.controller.state.activeAnalysisId)
    (hseq : out.1.state.lastAppliedSequence = x.sys.controller.state.lastAppliedSequence)
    (hsub : out.1.sseSubscription = x.sys.controller.sseSubscription)
  /-- an analysis becomes the active one; a stream of it that is open stays in step -/
  | shows (id : DartString) (hactive : out.1.state.activeAnalysisId = some id)
    (hsub : out.1.sseSubscription = x.sys.controller.sseSubscription)
    (hfits : ∀ sub, x.sys.openSubscription = some sub → sub.analysisId = id →
      x.sys.controller.state.activeAnalysisId = some id ∧
        (out.1.state.lastAppliedSequence = x.sys.controller.state.lastAppliedSequence ∨
          out.1.state.lastAppliedSequence = x.count id))
  /-- the events of an analysis are requested -/
  | subscribes (id : DartString) (lastEventId : Option DartString)
    (hsub : out.1.sseSubscription = some { analysisId := id, lastEventId })
    (hfits : out.1.state.activeAnalysisId = some id →
      Fits x id out.1.state.lastAppliedSequence lastEventId)

/-- Every answer that fits does one of these. -/
theorem AnalysisController.resume_moved {p : Pending D} {answer : Reply D} {now : DartString}
    {out : Outcome D} (h : x.sys.controller.resume cfg now p answer = some out)
    (hfits : AnswerFits x cfg p answer) : Moved x out := by
  cases p with
  | createAnalysis _ _ _ =>
    cases answer with
    | job id _ =>
      cases h
      obtain ⟨store, fingerprint⟩ := cfg
      cases store with
      | false => exact .subscribes id _ rfl fun _ => hfits
      | true =>
        cases fingerprint with
        | none => exact .subscribes id _ rfl fun _ => hfits
        | some fingerprint =>
          exact .shows id rfl rfl fun sub hsub hid => ⟨hfits sub hsub hid, .inl rfl⟩
    | error _ =>
      cases h
      exact .keeps rfl rfl rfl
    | _ => cases h
  | writeRecord id _ =>
    cases answer with
    | done =>
      cases h
      exact .subscribes id _ rfl hfits
    | error _ =>
      cases h
      exact .keeps rfl rfl rfl
    | _ => cases h
  | clarification _ restored =>
    cases restored with
    | none => cases answer <;> cases h <;> exact .keeps rfl rfl rfl
    | some record => cases answer <;> cases h <;> exact .subscribes _ _ rfl hfits
  | snapshot id =>
    cases answer with
    | job _ status =>
      simp only [resume] at h
      split at h
      · split at h <;> cases h <;> exact .keeps rfl rfl rfl
      · cases h
        exact .keeps rfl rfl rfl
    | error _ =>
      cases h
      exact .keeps rfl rfl rfl
    | _ => cases h
  | restoreRead =>
    cases answer with
    | record record => cases record <;> cases h <;> exact .keeps rfl rfl rfl
    | error _ =>
      cases h
      exact .keeps rfl rfl rfl
    | _ => cases h
  | restoreJob record =>
    cases answer with
    | job _ status =>
      cases h
      simp only [AnswerFits] at hfits
      simp only [restoreFromJob]
      by_cases hcompleted : status = dartString "COMPLETED"
      · rw [if_pos (.inl hcompleted)] at hfits
        rw [if_pos hcompleted]
        exact .shows _ rfl rfl fun sub hsub hid =>
          ⟨(hfits sub hsub hid).1, .inr (hfits sub hsub hid).2⟩
      · by_cases hclarification : status = dartString "NEEDS_CLARIFICATION"
        · rw [if_pos (.inr hclarification)] at hfits
          rw [if_neg hcompleted, if_pos hclarification]
          exact .shows _ rfl rfl fun sub hsub hid =>
            ⟨(hfits sub hsub hid).1, .inr (hfits sub hsub hid).2⟩
        · rw [if_neg (by tauto)] at hfits
          rw [if_neg hcompleted, if_neg hclarification]
          split
          · exact .keeps rfl rfl rfl
          · rename_i hended
            rw [if_neg hended] at hfits
            refine .subscribes _ _ rfl fun _ => ?_
            -- the record's event id is in the state already
            show Fits x _ record.lastAppliedSequence
              ((record.lastEventId.map dartString).or ((record.lastEventId.map dartString).or
                x.sys.controller.state.lastEventId))
            rw [← Option.or_assoc, Option.or_self]
            exact hfits
    | error _ =>
      cases h
      exact .keeps rfl rfl rfl
    | _ => cases h
  | restoreEnded record status =>
    cases answer with
    | done =>
      cases h
      exact .shows _ rfl rfl fun sub hsub hid => ⟨hfits sub hsub hid, .inl rfl⟩
    | error _ =>
      cases h
      exact .keeps rfl rfl rfl
    | _ => cases h
  | _ => cases answer <;> cases h <;> exact .keeps rfl rfl rfl

/-- What `_handleDomainEvent` does with an event: it applies it, or the analysis and its sequence
are what they were. -/
theorem AnalysisController.handleDomainEvent_eq {c : AnalysisController D}
    (event : AnalysisDomainEventModel D) :
    (c.handleDomainEvent cfg event).1.sseSubscription = c.sseSubscription ∧
      (c.handleDomainEvent cfg event).1.state.activeAnalysisId = c.state.activeAnalysisId ∧
      (c.handleDomainEvent cfg event).1.state.lastAppliedSequence =
        if AppliedSys.applies c.state event then event.sequence
        else c.state.lastAppliedSequence := by
  rw [handleDomainEvent, AppliedSys.applies]
  cases admits c.state event with
  | false => exact ⟨rfl, rfl, rfl⟩
  | true =>
    cases hasGap c.state event with
    | false => exact ⟨rfl, rfl, rfl⟩
    | true =>
      rw [if_pos rfl, if_pos rfl, refreshActiveSnapshot]
      split <;> exact ⟨rfl, rfl, rfl⟩

/-! ## The invariant -/

/-- The open stream of the active analysis is in step with what was applied. -/
structure StreamInStep (logs : EventLogs D) (x : AppliedSys D) (sub : EventSubscription D) : Prop where
  /-- the state is at the number of applied events -/
  sequence : x.sys.controller.state.lastAppliedSequence = x.count sub.analysisId
  /-- what was delivered is applied -/
  delivered : ∀ k ∈ sub.delivered, 1 ≤ k ∧ k ≤ x.count sub.analysisId
  /-- a request that is not answered does not skip an event -/
  requested : sub.response = none → lastSequence sub.lastEventId ≤ x.count sub.analysisId
  /-- a response does not skip an event -/
  response : ∀ events, sub.response = some events → ∃ start n, 1 ≤ start ∧
    start ≤ x.count sub.analysisId + 1 ∧ events = logs.from sub.analysisId start n

/-- What the condition keeps. -/
structure EventsInv (logs : EventLogs D) (x : AppliedSys D) : Prop where
  /-- every analysis is applied in order -/
  inOrder : InOrder x
  /-- the stream of the active analysis is in step -/
  stream : ∀ sub, x.sys.openSubscription = some sub →
    x.sys.controller.state.activeAnalysisId = some sub.analysisId → StreamInStep logs x sub

/-- The invariant says that the active analysis is applied exactly once. -/
theorem EventsInv.exactlyOnce (h : EventsInv logs x) : ExactlyOnce x := by
  intro id hid
  refine ⟨h.inOrder id, fun sub hsub hsame k hk => ?_⟩
  subst hsame
  obtain ⟨hlow, hhigh⟩ := (h.stream sub hsub hid).delivered k hk
  rw [h.inOrder, List.mem_map]
  exact ⟨k.toNat, List.mem_range'_1.mpr (by omega), by omega⟩

/-- A step without an event: the history stays. -/
theorem EventsInv.unapplied (h : EventsInv logs x) {sys : ControllerSys D}
    (hstream : ∀ sub, sys.openSubscription = some sub →
      sys.controller.state.activeAnalysisId = some sub.analysisId →
      StreamInStep logs { x with sys } sub) : EventsInv logs { x with sys } :=
  ⟨h.inOrder, hstream⟩

/-- A step that leaves the analysis, its sequence and the subscription. -/
theorem EventsInv.quiet (h : EventsInv logs x) {sys : ControllerSys D}
    (hactive : sys.controller.state.activeAnalysisId = x.sys.controller.state.activeAnalysisId)
    (hseq : sys.controller.state.lastAppliedSequence =
      x.sys.controller.state.lastAppliedSequence)
    (hsub : sys.controller.sseSubscription = x.sys.controller.sseSubscription) :
    EventsInv logs { x with sys } := by
  refine h.unapplied fun sub hopen hid => ?_
  have hold : x.sys.openSubscription = some sub := by
    rw [ControllerSys.openSubscription, ← hsub]
    exact hopen
  obtain ⟨hsequence, hdelivered, hrequested, hresponse⟩ := h.stream sub hold (hactive ▸ hid)
  exact ⟨hseq.trans hsequence, hdelivered, hrequested, hresponse⟩

/-- An answer that fits keeps the invariant. -/
theorem EventsInv.reply (h : EventsInv logs x) {sys : ControllerSys D} {out : Outcome D}
    (hmoved : Moved x out) (hsys : sys.controller = out.1) : EventsInv logs { x with sys } := by
  cases hmoved with
  | keeps hactive hseq hsub =>
    rw [← hsys] at hactive hseq hsub
    exact h.quiet hactive hseq hsub
  | shows id hactive hsub hfits =>
    rw [← hsys] at hactive hsub hfits
    refine h.unapplied fun sub hopen hid => ?_
    have hold : x.sys.openSubscription = some sub := by
      rw [ControllerSys.openSubscription, ← hsub]
      exact hopen
    obtain rfl := Option.some.inj (hactive.symm.trans hid)
    obtain ⟨hwas, hseq⟩ := hfits sub hold rfl
    obtain ⟨hsequence, hdelivered, hrequested, hresponse⟩ := h.stream sub hold hwas
    refine ⟨?_, hdelivered, hrequested, hresponse⟩
    obtain hseq | hseq := hseq
    · exact hseq.trans hsequence
    · exact hseq
  | subscribes id lastEventId hsub hfits =>
    rw [← hsys] at hsub hfits
    refine h.unapplied fun sub hopen hid => ?_
    obtain ⟨hsse, -⟩ := ControllerSys.openSubscription_eq_some.mp hopen
    obtain rfl := Option.some.inj (hsub.symm.trans hsse)
    obtain ⟨hseq, hlast⟩ := hfits hid
    refine ⟨hseq, ?_, fun _ => hlast, ?_⟩
    · rintro m ⟨⟩
    · rintro evs ⟨⟩

/-- One more event of an analysis. -/
theorem AppliedSys.appliedOf_append {sys : ControllerSys D} (id' : DartString) (k : ℤ) :
    ({ sys, applied := x.applied ++ [(id, k)] } : AppliedSys D).appliedOf id' =
      x.appliedOf id' ++ if id = id' then [k] else [] := by
  by_cases hid : id = id' <;> simp [appliedOf, List.filter_append, hid]

/-- The next event in order keeps the order. -/
theorem InOrder.append (h : InOrder x) {sys : ControllerSys D} {k : ℤ} (hk : k = x.count id + 1) :
    InOrder { sys, applied := x.applied ++ [(id, k)] } := by
  intro id'
  rw [AppliedSys.count, AppliedSys.appliedOf_append, h id']
  by_cases hid : id = id'
  · subst hid
    simp [List.range'_concat, hk, AppliedSys.count, Int.add_comm]
  · simp [hid]

/-- An event is applied if it is the next of the active analysis and the state is not terminal. -/
theorem AppliedSys.applies_next {s : AnalysisState D} {k : ℕ}
    (hactive : s.activeAnalysisId = some id) (hstatus : s.statusState.isTerminal = false)
    (hlow : s.lastAppliedSequence < k) (hhigh : (k : ℤ) ≤ s.lastAppliedSequence + 1) :
    applies s (logs.event id k) = true := by
  have hid := logs.analysisId_eq id k
  simp only [applies, AnalysisController.admits, AnalysisController.hasGap, hactive, hstatus,
    logs.sequence_eq, Bool.and_eq_true, Bool.not_eq_true', decide_eq_false_iff_not]
  refine ⟨⟨⟨trivial, ?_⟩, decide_eq_true hlow⟩, by omega⟩
  obtain hid | hid := hid <;> simp [hid]

/-- What the next event adds to the history. -/
theorem AppliedSys.appliedNext_eq {s : ControllerSys D} {sub : EventSubscription D}
    {ev : AnalysisDomainEventModel D} {rest : List (AnalysisDomainEventModel D)}
    (hsub : s.openSubscription = some sub) (hresponse : sub.response = some (ev :: rest)) :
    appliedNext s =
      if applies s.controller.state ev then [(sub.analysisId, ev.sequence)] else [] := by
  obtain ⟨analysisId, lastEventId, response, delivered, closed⟩ := sub
  cases hresponse
  simp only [appliedNext, hsub]

/-- The first of consecutive events, and the others. -/
theorem EventLogs.from_eq_cons {start n : ℕ} {ev : AnalysisDomainEventModel D}
    {rest : List (AnalysisDomainEventModel D)} (h : ev :: rest = logs.from id start n) :
    ev = logs.event id start ∧ ∃ m, rest = logs.from id (start + 1) m := by
  cases n with
  | zero => cases h
  | succ m =>
    rw [EventLogs.from, List.range'_succ, List.map_cons] at h
    obtain ⟨rfl, rfl⟩ := List.cons.inj h
    exact ⟨rfl, m, rfl⟩

/-- The next event of the active analysis keeps the invariant. -/
theorem EventsInv.nextEvent (h : EventsInv logs x) {sub sub' : EventSubscription D} {start m : ℕ}
    {sys : ControllerSys D} (hstep : StreamInStep logs x sub)
    (hactive : x.sys.controller.state.activeAnalysisId = some sub.analysisId)
    (hstart : 1 ≤ start) (hnext : start ≤ x.count sub.analysisId + 1)
    (hcond : x.sys.controller.state.statusState.isTerminal = true →
      (start : ℤ) ≤ x.sys.controller.state.lastAppliedSequence)
    (hsub' : sys.openSubscription = some sub')
    (hid' : sub'.analysisId = sub.analysisId)
    (hresponse' : sub'.response = some (logs.from sub.analysisId (start + 1) m))
    (hdelivered' : sub'.delivered = sub.delivered ++ [(start : ℤ)])
    (hseq : sys.controller.state.lastAppliedSequence =
      if AppliedSys.applies x.sys.controller.state (logs.event sub.analysisId start) then
        (start : ℤ) else x.sys.controller.state.lastAppliedSequence) :
    EventsInv logs { sys, applied := x.applied ++
      if AppliedSys.applies x.sys.controller.state (logs.event sub.analysisId start) then
        [(sub.analysisId, (start : ℤ))] else [] } := by
  obtain ⟨hsequence, hdelivered, -, -⟩ := hstep
  -- the stream after the event, with the new number of applied events
  have hstream : ∀ (applied : List (DartString × ℤ)) (count : ℕ),
      ({ sys, applied } : AppliedSys D).count sub.analysisId = count →
      sys.controller.state.lastAppliedSequence = count → x.count sub.analysisId ≤ count →
      start ≤ count → ∀ sub₁, sys.openSubscription = some sub₁ →
      StreamInStep logs { sys, applied } sub₁ := by
    intro applied count hcount hlast hle hstart' sub₁ hsub₁
    obtain rfl := Option.some.inj (hsub'.symm.trans hsub₁)
    refine ⟨?_, fun k hk => ?_, fun hnone => ?_, fun events hevents => ?_⟩
    · rw [hid', hcount]
      exact hlast
    · rw [hid', hcount]
      rw [hdelivered', List.mem_append, List.mem_singleton] at hk
      obtain hk | rfl := hk
      · have := hdelivered k hk
        omega
      · omega
    · rw [hresponse'] at hnone
      cases hnone
    · obtain rfl := Option.some.inj (hresponse'.symm.trans hevents)
      rw [hid', hcount]
      exact ⟨start + 1, m, by omega, by omega, rfl⟩
  by_cases happlies : AppliedSys.applies x.sys.controller.state
      (logs.event sub.analysisId start) = true
  · have hlow : x.sys.controller.state.lastAppliedSequence < start := by
      simp only [AppliedSys.applies, AnalysisController.admits, Bool.and_eq_true,
        decide_eq_true_eq, logs.sequence_eq] at happlies
      exact happlies.1.2
    have hstart' : (start : ℤ) = x.count sub.analysisId + 1 := by omega
    rw [if_pos happlies] at hseq ⊢
    refine ⟨h.inOrder.append hstart', fun sub₁ hsub₁ _ => ?_⟩
    refine hstream _ (x.count sub.analysisId + 1) ?_ (by omega) (by omega) (by omega) sub₁ hsub₁
    rw [AppliedSys.count, AppliedSys.appliedOf_append]
    simp [AppliedSys.count]
  · rw [if_neg happlies] at hseq ⊢
    have hhigh : start ≤ x.count sub.analysisId := by
      by_contra hgt
      refine happlies (AppliedSys.applies_next hactive ?_ (by omega) (by omega))
      by_contra hterminal
      have := hcond (by simpa using hterminal)
      omega
    rw [List.append_nil]
    exact ⟨h.inOrder, fun sub₁ hsub₁ _ => hstream x.applied (x.count sub.analysisId) rfl
      (hseq.trans hsequence) (Nat.le_refl _) hhigh sub₁ hsub₁⟩

/-- An event keeps the invariant. -/
theorem EventsInv.event (h : EventsInv logs x) {sub : EventSubscription D}
    {ev : AnalysisDomainEventModel D} {rest : List (AnalysisDomainEventModel D)}
    (hsub : x.sys.openSubscription = some sub) (hresponse : sub.response = some (ev :: rest))
    (hcond : KeepsCount x cfg .event) {sys : ControllerSys D}
    (hsys : sys = x.sys.perform ((x.sys.onStream { sub with
      response := some rest, delivered := sub.delivered ++ [ev.sequence] }).handleDomainEvent
        cfg ev)) :
    EventsInv logs { sys, applied := x.applied ++ AppliedSys.appliedNext x.sys } := by
  obtain ⟨-, hclosed⟩ := ControllerSys.openSubscription_eq_some.mp hsub
  have hcond := hcond sub ev rest hsub hresponse
  rw [AppliedSys.appliedNext_eq hsub hresponse]
  generalize hc : x.sys.onStream { sub with
      response := some rest, delivered := sub.delivered ++ [ev.sequence] } = c at hsys
  obtain ⟨hsse, hactive', hseq⟩ := @AnalysisController.handleDomainEvent_eq _ cfg c ev
  have hstate : c.state = x.sys.controller.state := by rw [← hc]; rfl
  have hnew : c.sseSubscription = some { sub with
      response := some rest, delivered := sub.delivered ++ [ev.sequence] } := by rw [← hc]; rfl
  rw [hstate] at hactive' hseq
  have hopen : sys.openSubscription = some { sub with
      response := some rest, delivered := sub.delivered ++ [ev.sequence] } :=
    ControllerSys.openSubscription_eq_some.mpr ⟨by rw [hsys]; exact hsse.trans hnew, hclosed⟩
  have hcontroller : sys.controller = (c.handleDomainEvent cfg ev).1 := by rw [hsys]; rfl
  rw [← hcontroller] at hactive' hseq
  by_cases hactive : x.sys.controller.state.activeAnalysisId = some sub.analysisId
  · rw [if_pos hactive] at hcond
    have hin := h.stream sub hsub hactive
    obtain ⟨start, n, hstart, hnext, hevents⟩ := hin.response _ hresponse
    obtain ⟨rfl, m, rfl⟩ := EventLogs.from_eq_cons hevents
    rw [logs.sequence_eq] at hcond hseq hopen ⊢
    exact h.nextEvent hin hactive hstart hnext hcond hopen rfl rfl rfl hseq
  · rw [if_neg hactive] at hcond
    rw [hcond]
    refine ⟨?_, fun sub₁ hsub₁ hid₁ => ?_⟩
    · rw [if_neg Bool.false_ne_true, List.append_nil]
      exact h.inOrder
    · obtain rfl := Option.some.inj (hopen.symm.trans hsub₁)
      exact absurd (hactive' ▸ hid₁) hactive

/-- A step in which the stream goes on without an event. -/
theorem EventsInv.onStream (h : EventsInv logs x) {sub : EventSubscription D}
    (hsub : x.sys.openSubscription = some sub) {sub' : EventSubscription D}
    {sys : ControllerSys D} (hsys : sys.controller.sseSubscription = some sub')
    (hid : sub'.analysisId = sub.analysisId)
    (hactive : sys.controller.state.activeAnalysisId = x.sys.controller.state.activeAnalysisId)
    (hin : StreamInStep logs x sub → sub'.closed = false → StreamInStep logs { x with sys } sub') :
    EventsInv logs { x with sys } := by
  refine h.unapplied fun sub₁ hopen hid₁ => ?_
  obtain ⟨hsse, hclosed⟩ := ControllerSys.openSubscription_eq_some.mp hopen
  obtain rfl := Option.some.inj (hsys.symm.trans hsse)
  exact hin (h.stream sub hsub (by rw [← hid, ← hactive]; exact hid₁)) hclosed

/-- **A step** that meets the condition keeps the invariant. -/
theorem EventsInv.step (h : EventsInv logs x) {act : ControllerAct D}
    (hstep : x.step cfg act = some x') (hserved : Served logs x act)
    (hcond : KeepsCount x cfg act) : EventsInv logs x' := by
  obtain ⟨s', hs', rfl⟩ := Option.map_eq_some_iff.mp hstep
  cases act with
  | submitAnalysis prompt key documentIds =>
    cases hs'
    rw [AnalysisController.submitAnalysis]
    split <;> exact h.quiet rfl rfl rfl
  | restorePendingAnalysis =>
    cases hs'
    rw [AnalysisController.restorePendingAnalysis]
    split
    · split <;> exact h.quiet rfl rfl rfl
    · exact h.quiet rfl rfl rfl
  | fetchClarificationDetails id =>
    cases hs'
    exact h.quiet rfl rfl rfl
  | submitClarification id key payload =>
    cases hs'
    rw [AnalysisController.submitClarification]
    split
    · exact h.quiet rfl rfl rfl
    · split <;> exact h.quiet rfl rfl rfl
  | cancelClarification id key =>
    cases hs'
    rw [AnalysisController.cancelClarification]
    split <;> exact h.quiet rfl rfl rfl
  | refreshActiveSnapshot =>
    cases hs'
    rw [AnalysisController.refreshActiveSnapshot]
    split <;> exact h.quiet rfl rfl rfl
  | cancelCurrentAnalysis =>
    cases hs'
    rw [AnalysisController.cancelCurrentAnalysis]
    split <;> exact h.quiet rfl rfl rfl
  | reply i answer now =>
    obtain ⟨p, out, hp, hout, rfl⟩ := ControllerSys.step_reply hs'
    exact h.reply (AnalysisController.resume_moved hout (hcond p hp)) rfl
  | connect events =>
    obtain ⟨sub, hsub, hnone, rfl⟩ := ControllerSys.step_connect hs'
    refine h.onStream hsub rfl rfl rfl fun hin _ => ?_
    obtain ⟨hsequence, hdelivered, hrequested, -⟩ := hin
    obtain ⟨start, n, hstart, hlast, hevents⟩ := hserved sub hsub
    refine ⟨hsequence, hdelivered, nofun, fun events' hevents' => ?_⟩
    obtain rfl := Option.some.inj hevents'
    have hle := hrequested hnone
    exact ⟨start, n, hstart, by
      show start ≤ x.count sub.analysisId + 1
      omega, hevents⟩
  | event =>
    obtain ⟨sub, ev, rest, hsub, hresponse, hsys⟩ := ControllerSys.step_event hs'
    exact h.event hsub hresponse hcond hsys
  | streamError =>
    obtain ⟨sub, hsub, rfl⟩ := ControllerSys.step_streamError hs'
    exact h.onStream hsub rfl rfl rfl nofun
  | streamDone =>
    obtain ⟨sub, hsub, -, rfl⟩ := ControllerSys.step_streamDone hs'
    exact h.onStream hsub rfl rfl rfl nofun

end

/-! ## Runs -/

/-- **Events are applied exactly once** in every run whose steps meet the condition, whatever
analyses are active one after the other. The history of a run is kept beside the controller, which
itself only knows the last sequence. -/
theorem events_appliedOnce (cfg : ControllerConfig) (logs : EventLogs D)
    (applied : List (DartString × ℤ)) (hbefore : InOrder (D := D) { applied })
    (acts : List (ControllerAct D)) (x : AppliedSys D)
    (hrun : runSteps (AppliedSys.step cfg) { applied } acts = some x)
    (hserved : AlongRun (AppliedSys.step cfg) (fun x act _ => Served logs x act) { applied } acts)
    (hcond : AlongRun (AppliedSys.step cfg) (fun x act _ => KeepsCount x cfg act) { applied }
      acts) : ExactlyOnce x := by
  have hstart : EventsInv logs ({ applied } : AppliedSys D) := ⟨hbefore, nofun⟩
  have hstep : ∀ x act x', EventsInv logs x → AppliedSys.step cfg x act = some x' →
      Served logs x act ∧ KeepsCount x cfg act → EventsInv logs x' :=
    fun _ _ _ hx h hboth => hx.step h hboth.1 hboth.2
  exact (AlongRun.invariant (P := fun x act _ => Served logs x act ∧ KeepsCount x cfg act) hstep
    (hserved.and hcond) hstart hrun).exactlyOnce

/-! ### One analysis, and a second one -/

/-- Logs of analyses that are completed. -/
def completedLogs : EventLogs .integral where
  event id k := streamEvent id k (match k with
    | 1 => "analysis.accepted"
    | 2 => "analysis.state_changed"
    | 3 => "analysis.plan_ready"
    | 4 => "analysis.tool_started"
    | 5 => "analysis.tool_completed"
    | _ => "analysis.completed")
  sequence_eq _ _ := rfl
  analysisId_eq id k := by
    by_cases hk : k = 1 <;> simp [streamEvent, hk]

/-- An analysis whose stream brings nothing, and a second one with two events. -/
def analysisAnew : List (ControllerAct .integral) :=
  submitted [55] (completedLogs.from [55] 1 0) ++ submitted [66] (completedLogs.from [66] 1 2)

/-- The second analysis is counted from one, since nothing of the first one has been applied. -/
theorem events_appliedOnce_anew : ∃ x : AppliedSys .integral,
    runSteps (AppliedSys.step ⟨false, none⟩) { applied := [] } analysisAnew = some x ∧
      x.sys.controller.state.activeAnalysisId = some [66] ∧ x.appliedOf [66] = [1, 2] ∧
      ExactlyOnce x := by
  have hrun : (runSteps (AppliedSys.step ⟨false, none⟩) { applied := [] } analysisAnew).map
      (fun x => (x.sys.controller.state.activeAnalysisId, x.appliedOf [66])) =
        some (some [66], [1, 2]) := by
    decide +kernel
  obtain ⟨x, hx, heq⟩ := Option.map_eq_some_iff.mp hrun
  obtain ⟨hactive, happlied⟩ := Prod.mk.inj heq
  refine ⟨x, hx, hactive, happlied,
    events_appliedOnce ⟨false, none⟩ completedLogs [] (fun _ => rfl) _ x hx ?_ ?_⟩
  · refine fun x h => ⟨trivial, ?_⟩
    cases h
    refine fun x h => ⟨trivial, ?_⟩
    cases h
    refine fun x h => ⟨fun sub hsub => ?_, ?_⟩
    · obtain rfl := Option.some.inj hsub
      exact ⟨1, 0, by decide, by decide, rfl⟩
    cases h
    refine fun x h => ⟨trivial, ?_⟩
    cases h
    refine fun x h => ⟨trivial, ?_⟩
    cases h
    refine fun x h => ⟨fun sub hsub => ?_, fun x h => ⟨trivial, fun x h => ⟨trivial, trivial⟩⟩⟩
    obtain rfl := Option.some.inj hsub
    exact ⟨1, 2, by decide, by decide, rfl⟩
  · refine fun x h => ⟨trivial, ?_⟩
    cases h
    refine fun x h => ⟨fun p hp => ?_, ?_⟩
    · cases hp
      exact ⟨rfl, by decide⟩
    cases h
    refine fun x h => ⟨trivial, ?_⟩
    cases h
    refine fun x h => ⟨trivial, ?_⟩
    cases h
    refine fun x h => ⟨fun p hp => ?_, ?_⟩
    · cases hp
      exact ⟨rfl, by decide⟩
    cases h
    refine fun x h => ⟨trivial, ?_⟩
    cases h
    refine fun x h => ⟨fun sub ev rest hsub _ => ?_, ?_⟩
    · cases hsub
      rw [if_pos (by decide +kernel)]
      exact fun hterminal => absurd hterminal (by decide +kernel)
    cases h
    refine fun x h => ⟨fun sub ev rest hsub _ => ?_, trivial⟩
    cases hsub
    rw [if_pos (by decide +kernel)]
    exact fun hterminal => absurd hterminal (by decide +kernel)

/-- An event of one analysis; then the request for a second one asks for what comes after it. -/
def secondAnalysis : List (ControllerAct .integral) :=
  submitted [55] (completedLogs.from [55] 1 1) ++ submitted [66] (completedLogs.from [66] 2 1)

/-- The first event of the second analysis is not applied. -/
theorem events_not_appliedOnce : ¬ ∀ (cfg : ControllerConfig) (logs : EventLogs .integral)
    (acts : List (ControllerAct .integral)) (x : AppliedSys .integral),
    runSteps (AppliedSys.step cfg) { applied := [] } acts = some x →
    AlongRun (AppliedSys.step cfg) (fun x act _ => Served logs x act) { applied := [] } acts →
    ExactlyOnce x := by
  intro hclaim
  have hrun : (runSteps (AppliedSys.step ⟨false, none⟩) { applied := [] } secondAnalysis).map
      (fun x => (x.sys.controller.state.activeAnalysisId, x.appliedOf [66])) =
        some (some [66], [2]) := by
    decide +kernel
  obtain ⟨x, hx, heq⟩ := Option.map_eq_some_iff.mp hrun
  obtain ⟨hactive, happlied⟩ := Prod.mk.inj heq
  have hserved : AlongRun (AppliedSys.step ⟨false, none⟩)
      (fun x act _ => Served completedLogs x act) { applied := [] } secondAnalysis := by
    refine fun x h => ⟨trivial, ?_⟩
    cases h
    refine fun x h => ⟨trivial, ?_⟩
    cases h
    refine fun x h => ⟨fun sub hsub => ?_, ?_⟩
    · obtain rfl := Option.some.inj hsub
      exact ⟨1, 1, by decide, by decide, rfl⟩
    · cases h
      refine fun x h => ⟨trivial, ?_⟩
      cases h
      refine fun x h => ⟨trivial, ?_⟩
      cases h
      refine fun x h => ⟨trivial, ?_⟩
      cases h
      refine fun x h => ⟨fun sub hsub => ?_, fun x h => ⟨trivial, trivial⟩⟩
      obtain rfl := Option.some.inj hsub
      exact ⟨2, 1, by decide, by decide, rfl⟩
  have honce := (hclaim ⟨false, none⟩ completedLogs secondAnalysis x hx hserved [66] hactive).1
  rw [AppliedSys.count, happlied] at honce
  exact absurd honce (by decide)

end FinanceIntelligence
