import FinanceIntelligence.AnalysisController
import FinanceIntelligence.StepRuns

/-!
# Who follows the active analysis

The stream of an analysis is a replay of the events that were there when it was
requested: it ends after them. What arrives later is only delivered if the controller
subscribes again.

* `activeAnalysis_followed` — in every state of a run whose steps keep a subscription, the active
  analysis **is followed**.
-/

namespace FinanceIntelligence

variable {D : DoubleText}

/-- The analysis to which the function subscribes when it goes on. -/
def Pending.subscribesTo : Pending D → Option DartString
  | .writeRecord id _ => some id
  | .clarification _ (some record) => some (dartString record.analysisId)
  | _ => none

/-- The controller, and whether the active analysis has ended: while a submission is awaited
the state no longer shows it. -/
structure WatchedSys (D : DoubleText) where
  /-- the controller -/
  sys : ControllerSys D := {}
  /-- the active analysis has reached a terminal state -/
  ended : Bool := false

namespace WatchedSys

variable (cfg : ControllerConfig)

/-- The controller after a step. -/
def watch (w : WatchedSys D) (sys : ControllerSys D) : WatchedSys D where
  sys
  ended := if sys.controller.state.statusState = .submitting then w.ended
    else sys.controller.state.statusState.isTerminal

/-- One step. -/
def step (w : WatchedSys D) (act : ControllerAct D) : Option (WatchedSys D) :=
  (w.sys.step cfg act).map w.watch

end WatchedSys

/-- A subscription to the analysis is pending. -/
def SubscriptionPending (pending : List (Pending D)) (id : DartString) : Prop :=
  ∃ p ∈ pending, p.subscribesTo = some id

/-- There is an open subscription for the analysis, or one is pending. -/
def Follows (s : ControllerSys D) (id : DartString) : Prop :=
  (∃ sub, s.openSubscription = some sub ∧ sub.analysisId = id) ∨ SubscriptionPending s.pending id

/-- **Not orphaned.** The active analysis has ended, or it is followed. -/
def NotOrphaned (w : WatchedSys D) : Prop :=
  ∀ id, w.sys.controller.state.activeAnalysisId = some id → w.ended = false → Follows w.sys id

/-- The analysis to which a function subscribes after the answer. -/
def Pending.subscribesAfter : Pending D → Reply D → Option DartString
  | .writeRecord id _, .done => some id
  | .clarification _ (some record), _ => some (dartString record.analysisId)
  | _, _ => none

/-- The answer of an accepted clarification. -/
def Pending.accepts : Pending D → Reply D → Bool
  | .respond _ _ _ _, .job _ _ => true
  | _, _ => false

/-- The active analysis stays followed. The stream does not fail, and does not end while the
analysis runs, unless a subscription to it is pending; a function that goes on subscribes to
the active analysis; and what would show the analysis as running again, an accepted
clarification or an event, does not come after the analysis has ended and its stream too. -/
def KeepsFollowing (w : WatchedSys D) : ControllerAct D → Prop
  | .streamError => ∀ id, w.sys.controller.state.activeAnalysisId = some id →
    SubscriptionPending w.sys.pending id
  | .streamDone => w.ended = false → ∀ id, w.sys.controller.state.activeAnalysisId = some id →
    SubscriptionPending w.sys.pending id
  | .event => w.ended = true → w.sys.controller.state.statusState.isTerminal = true ∨
    ∀ id, w.sys.controller.state.activeAnalysisId = some id → Follows w.sys id
  | .reply i answer _ => ∀ p ∈ w.sys.pending[i]?,
    (∀ id, p.subscribesAfter answer = some id → w.ended = false →
      ∀ active, w.sys.controller.state.activeAnalysisId = some active →
        active = id ∨ SubscriptionPending (w.sys.pending.eraseIdx i) active) ∧
    (p.accepts answer = true → w.ended = true →
      ∀ id, w.sys.controller.state.activeAnalysisId = some id → Follows w.sys id)
  | _ => True

section

variable {cfg : ControllerConfig} {c : AnalysisController D} {s s' : ControllerSys D}
  {w w' : WatchedSys D} {id : DartString}

/-! ## The functions -/

/-- The stream of the analysis is open. -/
def StreamOpen (c : AnalysisController D) (id : DartString) : Prop :=
  ∃ sub, c.sseSubscription = some sub ∧ sub.closed = false ∧ sub.analysisId = id

/-- What an answer does. -/
inductive Resumed (c : AnalysisController D) (p : Pending D) (answer : Reply D) (out : Outcome D) :
    Prop
  /-- the state is terminal after it -/
  | terminal (h : out.1.state.statusState.isTerminal = true)
  /-- an analysis becomes the active one, with its stream or on the way to it -/
  | activates (id : DartString) (hactive : out.1.state.activeAnalysisId = some id)
    (hfollowed : StreamOpen out.1 id ∨ ∃ q, .await q ∈ out.2 ∧ q.subscribesTo = some id)
  /-- the function has subscribed -/
  | subscribes (id : DartString) (hafter : p.subscribesAfter answer = some id)
    (hstatus : out.1.state.statusState = c.state.statusState)
    (hactive : out.1.state.activeAnalysisId = c.state.activeAnalysisId)
    (hopen : StreamOpen out.1 id)
  /-- the analysis and its subscription are what they were -/
  | keeps (hp : p.subscribesTo = none)
    (hstatus : p.accepts answer = true ∨ out.1.state.statusState = c.state.statusState)
    (hactive : out.1.state.activeAnalysisId = c.state.activeAnalysisId)
    (hsub : out.1.sseSubscription = c.sseSubscription)

/-- Every answer does one of these. -/
theorem AnalysisController.resume_resumed {p : Pending D} {answer : Reply D} {now : DartString}
    {out : Outcome D} (h : c.resume cfg now p answer = some out) : Resumed c p answer out := by
  cases p with
  | createAnalysis _ _ _ =>
    cases answer with
    | job id _ =>
      cases h
      simp only [accepted]
      split
      · exact .activates id rfl (.inr ⟨_, List.mem_singleton_self _, rfl⟩)
      · exact .activates id rfl (.inl ⟨_, rfl, rfl, rfl⟩)
    | error _ =>
      cases h
      exact .terminal rfl
    | _ => cases h
  | writeRecord id _ =>
    cases answer with
    | done =>
      cases h
      exact .subscribes id rfl rfl rfl ⟨_, rfl, rfl, rfl⟩
    | error _ =>
      cases h
      exact .terminal rfl
    | _ => cases h
  | clarification _ restored =>
    cases restored with
    | none => cases answer <;> cases h <;> exact .keeps rfl (.inr rfl) rfl rfl
    | some record =>
      cases answer <;> cases h <;>
        exact .subscribes _ rfl rfl rfl ⟨_, rfl, rfl, rfl⟩
  | respond _ _ _ _ =>
    cases answer <;> cases h
    · exact .keeps rfl (.inl rfl) rfl rfl
    · exact .keeps rfl (.inr rfl) rfl rfl
  | cancelClarification _ _ _ =>
    cases answer <;> cases h
    · exact .terminal rfl
    · exact .keeps rfl (.inr rfl) rfl rfl
  | snapshot id =>
    cases answer with
    | job _ status =>
      by_cases hstatus : status = dartString "COMPLETED"
      · simp only [resume, if_pos hstatus] at h
        split at h <;> cases h <;> exact .terminal rfl
      · simp only [resume, if_neg hstatus] at h
        cases h
        exact .keeps rfl (.inr rfl) rfl rfl
    | error _ =>
      cases h
      exact .keeps rfl (.inr rfl) rfl rfl
    | _ => cases h
  | completedResult _ =>
    cases answer <;> cases h
    · exact .keeps rfl (.inr rfl) rfl rfl
    · exact .terminal rfl
  | restoreRead =>
    cases answer with
    | record record =>
      cases record <;> cases h <;> exact .keeps rfl (.inr rfl) rfl rfl
    | error _ =>
      cases h
      exact .keeps rfl (.inr rfl) rfl rfl
    | _ => cases h
  | restoreJob record =>
    cases answer with
    | job _ status =>
      cases h
      simp only [restoreFromJob]
      split
      · exact .terminal rfl
      · split
        · exact .activates _ rfl (.inr ⟨_, List.mem_singleton_self _, rfl⟩)
        · split
          · exact .keeps rfl (.inr rfl) rfl rfl
          · exact .activates _ rfl (.inl ⟨_, rfl, rfl, rfl⟩)
    | error _ =>
      cases h
      exact .keeps rfl (.inr rfl) rfl rfl
    | _ => cases h
  | restoreEnded record status =>
    cases answer with
    | done =>
      cases h
      refine .terminal ?_
      simp only [set, AnalysisState.copyWith, Option.getD_some, endedState]
      split
      · rfl
      · split <;> rfl
    | error _ =>
      cases h
      exact .keeps rfl (.inr rfl) rfl rfl
    | _ => cases h
  | _ => cases answer <;> cases h <;> exact .keeps rfl (.inr rfl) rfl rfl

/-- The active analysis and the response of an event stay. -/
theorem AnalysisController.handleDomainEvent_keeps (ev : AnalysisDomainEventModel D) :
    (c.handleDomainEvent cfg ev).1.state.activeAnalysisId = c.state.activeAnalysisId ∧
      (c.handleDomainEvent cfg ev).1.sseSubscription = c.sseSubscription := by
  rw [handleDomainEvent]
  split
  · split
    · rw [refreshActiveSnapshot]
      split <;> exact ⟨rfl, rfl⟩
    · exact ⟨rfl, rfl⟩
  · exact ⟨rfl, rfl⟩

/-! ## One step -/

/-- The functions at an `await` after one of them has gone on. -/
theorem SubscriptionPending.erase {pending : List (Pending D)} {i : ℕ} {p : Pending D}
    (h : SubscriptionPending pending id) (hp : pending[i]? = some p) (hno : p.subscribesTo = none) :
    SubscriptionPending (pending.eraseIdx i) id := by
  obtain ⟨q, hq, hid⟩ := h
  obtain ⟨k, hk⟩ := List.mem_iff_getElem?.mp hq
  refine ⟨q, List.mem_eraseIdx_iff_getElem?.mpr ⟨k, ?_, hk⟩, hid⟩
  rintro rfl
  cases Option.some.inj (hp.symm.trans hk)
  rw [hno] at hid
  cases hid

/-- More functions at an `await`. -/
theorem SubscriptionPending.perform {out : Outcome D} (h : SubscriptionPending s.pending id) :
    SubscriptionPending (s.perform out).pending id := by
  obtain ⟨q, hq, hid⟩ := h
  exact ⟨q, List.mem_append_left _ hq, hid⟩

/-- A function that a handler left at an `await`. -/
theorem SubscriptionPending.of_await {out : Outcome D} {q : Pending D} (hq : .await q ∈ out.2)
    (hid : q.subscribesTo = some id) : SubscriptionPending (s.perform out).pending id :=
  ⟨q, List.mem_append_right _ (List.mem_filterMap.mpr ⟨_, hq, rfl⟩), hid⟩

/-- An open subscription. -/
theorem StreamOpen.follows (h : StreamOpen s.controller id) : Follows s id := by
  obtain ⟨sub, hsub, hopen, hid⟩ := h
  exact .inl ⟨sub, ControllerSys.openSubscription_eq_some.mpr ⟨hsub, hopen⟩, hid⟩

/-- What the controller follows, where the subscription stays open and what is pending stays. -/
theorem Follows.mono (h : Follows s id)
    (hopen : StreamOpen s.controller id → StreamOpen s'.controller id)
    (hpending : SubscriptionPending s.pending id → SubscriptionPending s'.pending id) :
    Follows s' id := by
  obtain ⟨sub, hsub, hid⟩ | h := h
  · obtain ⟨hsub, hclosed⟩ := ControllerSys.openSubscription_eq_some.mp hsub
    exact (hopen ⟨sub, hsub, hclosed, hid⟩).follows
  · exact .inr (hpending h)

/-- The active analysis is not orphaned, and the watch agrees with the state. -/
structure Watched (w : WatchedSys D) : Prop where
  notOrphaned : NotOrphaned w
  /-- the state shows whether it has ended, unless a submission is awaited -/
  shown : w.sys.controller.state.statusState ≠ .submitting →
    w.ended = w.sys.controller.state.statusState.isTerminal

/-- After a step it is enough that the active analysis, if it has not ended, is followed. -/
theorem WatchedSys.watched_watch (h : ∀ id, s'.controller.state.activeAnalysisId = some id →
    (w.watch s').ended = false → Follows s' id) : Watched (w.watch s') where
  notOrphaned := h
  shown hne := if_neg hne

/-- A terminal state has ended. -/
theorem WatchedSys.ended_of_terminal
    (h : s'.controller.state.statusState.isTerminal = true) : (w.watch s').ended = true := by
  rw [watch]
  split
  · rename_i hsubmitting
    rw [hsubmitting] at h
    cases h
  · exact h

/-- The same state has ended if it had. -/
theorem Watched.ended_of_same (h : Watched w)
    (hstatus : s'.controller.state.statusState = w.sys.controller.state.statusState) :
    (w.watch s').ended = w.ended := by
  rw [WatchedSys.watch, hstatus]
  split
  · rfl
  · exact (h.shown ‹_›).symm

/-- A step of the user or of the stream, where the analysis and the subscription stay. -/
theorem Watched.same (h : Watched w)
    (hended : (w.watch s').ended = false → w.ended = false)
    (hactive : s'.controller.state.activeAnalysisId = w.sys.controller.state.activeAnalysisId)
    (hsub : s'.controller.sseSubscription = w.sys.controller.sseSubscription)
    (hpending : ∀ id, SubscriptionPending w.sys.pending id → SubscriptionPending s'.pending id) :
    Watched (w.watch s') :=
  WatchedSys.watched_watch fun id hid hend =>
    (h.notOrphaned id (hactive ▸ hid) (hended hend)).mono (fun ⟨sub, hs, hrest⟩ =>
      ⟨sub, hsub.trans hs, hrest⟩) (hpending id)

/-- A function of the user that leaves the state, the analysis and the subscription. -/
theorem Watched.quiet (h : Watched w) {out : Outcome D}
    (hquiet : out.1.state.statusState = w.sys.controller.state.statusState ∧
      out.1.state.activeAnalysisId = w.sys.controller.state.activeAnalysisId ∧
      out.1.sseSubscription = w.sys.controller.sseSubscription) :
    Watched (w.watch (w.sys.perform out)) :=
  h.same (fun he => @Watched.ended_of_same _ (w.sys.perform out) w h hquiet.1 ▸ he) hquiet.2.1
    hquiet.2.2 fun _ => .perform

/-- An answer keeps the active analysis followed. -/
theorem Watched.reply (h : Watched w) {i : ℕ} {p : Pending D} {answer : Reply D} {now : DartString}
    {out : Outcome D} (hp : w.sys.pending[i]? = some p)
    (hout : w.sys.controller.resume cfg now p answer = some out)
    (hcond : KeepsFollowing w (.reply i answer now)) :
    Watched (w.watch ({ w.sys with pending := w.sys.pending.eraseIdx i }.perform out)) := by
  obtain ⟨hafter, haccepts⟩ := hcond p hp
  cases AnalysisController.resume_resumed hout with
  | terminal hterminal =>
    refine WatchedSys.watched_watch fun id _ hend => ?_
    rw [WatchedSys.ended_of_terminal hterminal] at hend
    cases hend
  | activates active hactive hfollowed =>
    refine WatchedSys.watched_watch fun id hid _ => ?_
    obtain rfl := Option.some.inj (hactive.symm.trans hid)
    obtain hopen | ⟨q, hq, hsub⟩ := hfollowed
    · exact StreamOpen.follows hopen
    · exact .inr (.of_await hq hsub)
  | subscribes id' hid' hstatus hactive hopen =>
    refine WatchedSys.watched_watch fun id hid hend => ?_
    rw [h.ended_of_same hstatus] at hend
    obtain rfl | hpending := hafter id' hid' hend id (hactive ▸ hid)
    · exact StreamOpen.follows hopen
    · exact .inr hpending.perform
  | keeps hno hstatus hactive hsub =>
    refine WatchedSys.watched_watch fun id hid hend => ?_
    have hold : w.sys.controller.state.activeAnalysisId = some id := hactive ▸ hid
    have hfollows : Follows w.sys id := by
      cases hw : w.ended with
      | false => exact h.notOrphaned id hold hw
      | true =>
        obtain haccepted | hsame := hstatus
        · exact haccepts haccepted hw id hold
        · rw [h.ended_of_same hsame, hw] at hend
          cases hend
    exact hfollows.mono (fun ⟨sub, hs, hrest⟩ => ⟨sub, hsub.trans hs, hrest⟩)
      fun hpending => (hpending.erase hp hno).perform

/-- What the stream brings keeps the active analysis followed. -/
theorem Watched.event (h : Watched w) {sub : EventSubscription D} {ev : AnalysisDomainEventModel D}
    {rest : List (AnalysisDomainEventModel D)} (hsub : w.sys.openSubscription = some sub)
    (hcond : KeepsFollowing w .event) :
    Watched (w.watch (w.sys.perform ((w.sys.onStream { sub with
      response := some rest, delivered := sub.delivered ++ [ev.sequence] }).handleDomainEvent
        cfg ev))) := by
  obtain ⟨hsse, hclosed⟩ := ControllerSys.openSubscription_eq_some.mp hsub
  generalize hc : w.sys.onStream { sub with
      response := some rest, delivered := sub.delivered ++ [ev.sequence] } = c
  have hstate : c.state = w.sys.controller.state := by rw [← hc]; rfl
  obtain ⟨hactive, hkept⟩ := @AnalysisController.handleDomainEvent_keeps _ cfg c ev
  refine WatchedSys.watched_watch fun id hid hend => ?_
  have hold : w.sys.controller.state.activeAnalysisId = some id := by
    rw [← hstate, ← hactive]
    exact hid
  have hfollows : Follows w.sys id := by
    cases hw : w.ended with
    | false => exact h.notOrphaned id hold hw
    | true =>
      obtain hterminal | hfollows := hcond hw
      · have hreturn : (c.handleDomainEvent cfg ev).1.state = w.sys.controller.state := by
          rw [AnalysisController.handleDomainEvent, AnalysisController.admits, hstate, hterminal]
          exact hstate
        rw [h.ended_of_same (congrArg _ hreturn), hw] at hend
        cases hend
      · exact hfollows id hold
  refine hfollows.mono (fun ⟨sub', hs, hrest⟩ => ?_) .perform
  obtain rfl := Option.some.inj (hsse.symm.trans hs)
  have hnew : c.sseSubscription = some { sub with
      response := some rest, delivered := sub.delivered ++ [ev.sequence] } := by rw [← hc]; rfl
  exact ⟨_, hkept.trans hnew, hrest⟩

/-- **A step** keeps the active analysis followed. -/
theorem Watched.step (h : Watched w) {act : ControllerAct D} (hstep : w.step cfg act = some w')
    (hcond : KeepsFollowing w act) : Watched w' := by
  obtain ⟨s', hs', rfl⟩ := Option.map_eq_some_iff.mp hstep
  cases act with
  | submitAnalysis prompt key documentIds =>
    cases hs'
    rw [AnalysisController.submitAnalysis]
    split
    · exact h.quiet ⟨rfl, rfl, rfl⟩
    · -- the watch keeps what it saw before the submission
      exact h.same id rfl rfl fun _ => .perform
  | restorePendingAnalysis =>
    cases hs'
    rw [AnalysisController.restorePendingAnalysis]
    split
    · split <;> exact h.quiet ⟨rfl, rfl, rfl⟩
    · exact h.quiet ⟨rfl, rfl, rfl⟩
  | fetchClarificationDetails id =>
    cases hs'
    exact h.quiet ⟨rfl, rfl, rfl⟩
  | submitClarification id key payload =>
    cases hs'
    rw [AnalysisController.submitClarification]
    split
    · exact h.quiet ⟨rfl, rfl, rfl⟩
    · split <;> exact h.quiet ⟨rfl, rfl, rfl⟩
  | cancelClarification id key =>
    cases hs'
    rw [AnalysisController.cancelClarification]
    split <;> exact h.quiet ⟨rfl, rfl, rfl⟩
  | refreshActiveSnapshot =>
    cases hs'
    rw [AnalysisController.refreshActiveSnapshot]
    split <;> exact h.quiet ⟨rfl, rfl, rfl⟩
  | cancelCurrentAnalysis =>
    cases hs'
    rw [AnalysisController.cancelCurrentAnalysis]
    split
    · exact h.quiet ⟨rfl, rfl, rfl⟩
    · refine WatchedSys.watched_watch fun id _ hend => ?_
      rw [WatchedSys.ended_of_terminal rfl] at hend
      cases hend
  | reply i answer now =>
    obtain ⟨p, out, hp, hout, rfl⟩ := ControllerSys.step_reply hs'
    exact h.reply hp hout hcond
  | connect events =>
    obtain ⟨sub, hsub, -, rfl⟩ := ControllerSys.step_connect hs'
    obtain ⟨hsse, -⟩ := ControllerSys.openSubscription_eq_some.mp hsub
    refine WatchedSys.watched_watch fun id hid hend => ?_
    refine (h.notOrphaned id hid (h.ended_of_same rfl ▸ hend)).mono ?_ fun hpending => hpending
    rintro ⟨sub', hs, hrest⟩
    obtain rfl := Option.some.inj (hsse.symm.trans hs)
    exact ⟨_, rfl, hrest⟩
  | event =>
    obtain ⟨sub, ev, rest, hsub, -, rfl⟩ := ControllerSys.step_event hs'
    exact h.event hsub hcond
  | streamError =>
    obtain ⟨sub, -, rfl⟩ := ControllerSys.step_streamError hs'
    exact WatchedSys.watched_watch fun id hid _ => .inr (hcond id hid)
  | streamDone =>
    obtain ⟨sub, -, -, rfl⟩ := ControllerSys.step_streamDone hs'
    exact WatchedSys.watched_watch fun id hid hend =>
      .inr (hcond (h.ended_of_same rfl ▸ hend) id hid)

end

/-! ## Runs -/

/-- **The active analysis is followed** in every state of a run whose steps keep following it. What
has to be avoided is that the stream ends while the analysis goes on, since nobody subscribes
again. -/
theorem activeAnalysis_followed (cfg : ControllerConfig) (acts : List (ControllerAct D))
    (w : WatchedSys D) (hrun : runSteps (WatchedSys.step cfg) {} acts = some w)
    (hacts : AlongRun (WatchedSys.step cfg) (fun w act _ => KeepsFollowing w act) {} acts) :
    NotOrphaned w := by
  have hstart : Watched ({} : WatchedSys D) := ⟨nofun, fun _ => rfl⟩
  have hstep : ∀ w act w', Watched w → WatchedSys.step cfg w act = some w' →
      KeepsFollowing (D := D) w act → Watched w' := fun _ _ _ hw h hcond => hw.step h hcond
  exact (AlongRun.invariant (P := fun w act _ => KeepsFollowing w act) hstep hacts hstart
    hrun).notOrphaned

/-- The stream brings the last event of an analysis before it ends. -/
def completedInTime : List (ControllerAct .integral) :=
  submitted [55] [streamEvent [55] 6 "analysis.completed"] ++ [.streamDone]

/-- The analysis is completed before its stream ends. -/
theorem activeAnalysis_followed_completed : ∃ w : WatchedSys .integral,
    runSteps (WatchedSys.step ⟨false, none⟩) {} completedInTime = some w ∧ NotOrphaned w := by
  obtain ⟨w, hrun⟩ : ∃ w : WatchedSys .integral,
      runSteps (WatchedSys.step ⟨false, none⟩) {} completedInTime = some w := ⟨_, rfl⟩
  refine ⟨w, hrun, activeAnalysis_followed ⟨false, none⟩ completedInTime w hrun ?_⟩
  intro w h
  cases h
  refine ⟨trivial, fun w h => ⟨fun p hp => ?_, ?_⟩⟩
  · cases hp
    exact ⟨nofun, nofun⟩
  · cases h
    refine fun w h => ⟨trivial, ?_⟩
    cases h
    refine fun w h => ⟨nofun, ?_⟩
    cases h
    exact fun w h => ⟨fun hended => absurd hended (by decide), trivial⟩

/-- The stream of a new analysis is the replay of its first event; then it ends. -/
theorem activeAnalysis_orphaned : ¬ ∀ (cfg : ControllerConfig)
    (acts : List (ControllerAct .integral)) (w : WatchedSys .integral),
    runSteps (WatchedSys.step cfg) {} acts = some w → NotOrphaned w := by
  intro hclaim
  have hfollows := hclaim ⟨false, none⟩
    (submitted [55] [streamEvent [55] 1 "analysis.accepted"] ++ [.streamDone]) _ rfl [55] rfl
    (by decide)
  obtain ⟨sub, hsub, -⟩ | ⟨p, hp, -⟩ := hfollows
  · cases hsub
  · cases hp

end FinanceIntelligence
