import FinanceIntelligence.AnalysisController
import FinanceIntelligence.StepRuns

/-!
# Terminal states of the controller

What arrives for an analysis that has ended: events, the failure of the stream, answers
of calls that are still awaited. `_handleDomainEvent` returns in a terminal state; the
other handlers do not look at the state.

* `terminalState_absorbs_iff` — a terminal state **absorbs** what arrives exactly if the stream
  does not fail and no answer is one that sets another state.
-/

namespace FinanceIntelligence

variable {D : DoubleText}

/-- The state is what it was, or a completed analysis has failed to load its result. -/
def AnalysisStatusState.Absorbs (before after : AnalysisStatusState) : Prop :=
  after = before ∨ before = .completed ∧ after = .failedTerminal

/-- A function that makes another analysis the active one, or subscribes to one. -/
def Pending.startsAnalysis : Pending D → Bool
  | .createAnalysis _ _ _ | .writeRecord _ _ | .clarification _ (some _) | .restoreSession _
  | .restoreRead | .restoreJob _ | .restoreCompleted _ | .restoreEnded _ _ | .restoreCleared => true
  | _ => false

namespace ControllerAct

/-- What arrives: an event, an error or the end of the stream, or an answer. -/
def isArrival : ControllerAct D → Bool
  | .reply _ _ _ | .connect _ | .event | .streamError | .streamDone => true
  | _ => false

/-- It belongs to the analysis that is shown, not to a new one. -/
def OfAnalysis (s : ControllerSys D) : ControllerAct D → Prop
  | .submitAnalysis _ _ _ | .restorePendingAnalysis => False
  | .reply i _ _ => ∀ p ∈ s.pending[i]?, p.startsAnalysis = false
  | _ => True

/-- What arrives does not change the state, other than a result that cannot be loaded. -/
def ArrivalAbsorbs (s : ControllerSys D) (act : ControllerAct D) (s' : ControllerSys D) : Prop :=
  act.isArrival = true →
    s.controller.state.statusState.Absorbs s'.controller.state.statusState

/-- An answer after which a terminal state is still the same. -/
def AnswerKeepsTerminal (statusState : AnalysisStatusState) : Pending D → Reply D → Prop
  | .respond _ _ _ _, .job _ _ => False
  | .cancelClarification _ _ _, .job _ _ => statusState = .cancelled
  | .snapshot _, .job _ status => status = dartString "COMPLETED" → statusState = .completed
  | .completedResult _, .error _ => statusState = .completed ∨ statusState = .failedTerminal
  | _, _ => True

/-- The stream does not fail, and no answer changes the state: that of a clarification is not
accepted, one is cancelled only for a cancelled analysis, a snapshot is only completed where
the analysis is, and a result is missing only for a completed or a failed analysis. -/
def KeepsTerminal (s : ControllerSys D) : ControllerAct D → Prop
  | .streamError => False
  | .reply i answer _ => ∀ p ∈ s.pending[i]?,
    AnswerKeepsTerminal s.controller.state.statusState p answer
  | _ => True

end ControllerAct

open ControllerAct

section

variable {cfg : ControllerConfig} {s s' : ControllerSys D} {c : AnalysisController D}

/-- The same status. -/
theorem AnalysisStatusState.absorbs_self (x : AnalysisStatusState) : x.Absorbs x := .inl rfl

/-- The statuses that the handlers set, after a terminal one. -/
theorem AnalysisStatusState.absorbs_iff {x : AnalysisStatusState} (h : x.isTerminal = true) :
    ¬ x.Absorbs .understanding ∧ ¬ x.Absorbs .reconnecting ∧
      (x.Absorbs .cancelled ↔ x = .cancelled) ∧ (x.Absorbs .completed ↔ x = .completed) ∧
      (x.Absorbs .failedTerminal ↔ x = .completed ∨ x = .failedTerminal) := by
  cases x <;> simp_all [Absorbs, isTerminal]

/-- A terminal status stays terminal. -/
theorem AnalysisStatusState.Absorbs.isTerminal {x y : AnalysisStatusState} (h : x.Absorbs y)
    (hx : x.isTerminal = true) : y.isTerminal = true := by
  obtain rfl | ⟨-, rfl⟩ := h
  · exact hx
  · rfl

/-- In a terminal state an event is returned from. -/
theorem AnalysisController.handleDomainEvent_terminal
    (h : c.state.statusState.isTerminal = true) (ev : AnalysisDomainEventModel D) :
    c.handleDomainEvent cfg ev = (c, []) := by
  simp [handleDomainEvent, admits, h]

/-- **An answer** for the analysis absorbs exactly if the condition says so. -/
theorem AnalysisController.resume_absorbs {p : Pending D} {answer : Reply D} {now : DartString}
    {out : Outcome D} (hp : p.startsAnalysis = false)
    (h : c.resume cfg now p answer = some out) (hterminal : c.state.statusState.isTerminal = true) :
    c.state.statusState.Absorbs out.1.state.statusState ↔
      AnswerKeepsTerminal c.state.statusState p answer := by
  obtain ⟨hunderstanding, -, hcancelled, hcompleted, hfailed⟩ :=
    AnalysisStatusState.absorbs_iff hterminal
  have hkept := iff_of_true c.state.statusState.absorbs_self True.intro
  cases p with
  | respond _ _ _ _ =>
    cases answer <;> cases h
    · exact iff_of_false hunderstanding id
    · exact hkept
  | cancelClarification _ _ _ =>
    cases answer <;> cases h
    · exact hcancelled
    · exact hkept
  | snapshot id =>
    cases answer with
    | job _ status =>
      by_cases hstatus : status = dartString "COMPLETED"
      · have hout : out.1.state.statusState = .completed := by
          simp only [resume, if_pos hstatus] at h
          split at h <;> cases h <;> rfl
        rw [hout, hcompleted]
        exact ⟨fun hc _ => hc, fun hc => hc hstatus⟩
      · simp only [resume, if_neg hstatus] at h
        cases h
        exact iff_of_true c.state.statusState.absorbs_self fun hs => absurd hs hstatus
    | error _ =>
      cases h
      exact hkept
    | data _ => cases h
    | record _ => cases h
    | done => cases h
  | completedResult _ =>
    cases answer <;> cases h
    · exact hkept
    · exact hfailed
  | clarification _ restored =>
    cases restored with
    | some _ => cases hp
    | none => cases answer <;> cases h <;> exact hkept
  | cancelClarificationStored => cases answer <;> cases h <;> exact hkept
  | snapshotStored _ => cases answer <;> cases h <;> exact hkept
  | cancelStored _ => cases answer <;> cases h <;> exact hkept
  | cancelAnalysis _ => cases answer <;> cases h <;> exact hkept
  | _ => cases hp

/-- **A step** of the analysis in a terminal state: an arrival absorbs exactly if the condition
says so, and where it absorbs the state stays terminal, as it does when the user acts. -/
theorem ControllerSys.step_absorbs {act : ControllerAct D}
    (hterminal : s.controller.state.statusState.isTerminal = true) (hof : OfAnalysis s act)
    (h : s.step cfg act = some s') :
    (ArrivalAbsorbs s act s' ↔ KeepsTerminal s act) ∧
      (ArrivalAbsorbs s act s' → s'.controller.state.statusState.isTerminal = true) := by
  have harrival : act.isArrival = true → ArrivalAbsorbs s act s' →
      s'.controller.state.statusState.isTerminal = true := fun ha hp =>
    (hp ha).isTerminal hterminal
  cases act with
  | submitAnalysis _ _ _ => exact hof.elim
  | restorePendingAnalysis => exact hof.elim
  | fetchClarificationDetails id =>
    cases h
    exact ⟨iff_of_true nofun trivial, fun _ => hterminal⟩
  | submitClarification id key payload =>
    refine ⟨iff_of_true nofun trivial, fun _ => ?_⟩
    cases h
    simp only [perform, AnalysisController.submitClarification]
    split
    · exact hterminal
    · split <;> exact hterminal
  | cancelClarification id key =>
    refine ⟨iff_of_true nofun trivial, fun _ => ?_⟩
    cases h
    simp only [perform, AnalysisController.cancelClarification]
    split <;> exact hterminal
  | refreshActiveSnapshot =>
    refine ⟨iff_of_true nofun trivial, fun _ => ?_⟩
    cases h
    simp only [perform, AnalysisController.refreshActiveSnapshot]
    split <;> exact hterminal
  | cancelCurrentAnalysis =>
    refine ⟨iff_of_true nofun trivial, fun _ => ?_⟩
    cases h
    simp only [perform, AnalysisController.cancelCurrentAnalysis]
    split
    · exact hterminal
    · rfl
  | reply i answer now =>
    obtain ⟨p, out, hp, hout, rfl⟩ := step_reply h
    have habsorbs := AnalysisController.resume_absorbs (hof p hp) hout hterminal
    refine ⟨?_, harrival rfl⟩
    constructor
    · intro ha q hq
      obtain rfl := Option.some.inj (hp.symm.trans hq)
      exact habsorbs.mp (ha rfl)
    · exact fun hk _ => habsorbs.mpr (hk p hp)
  | connect events =>
    obtain ⟨sub, -, -, rfl⟩ := step_connect h
    exact ⟨iff_of_true (fun _ => .inl rfl) trivial, harrival rfl⟩
  | event =>
    obtain ⟨sub, ev, rest, -, -, rfl⟩ := step_event h
    refine ⟨iff_of_true (fun _ => ?_) trivial, harrival rfl⟩
    have hreturn : ∀ c : AnalysisController D, c.state = s.controller.state →
        c.handleDomainEvent cfg ev = (c, []) := fun c hc =>
      AnalysisController.handleDomainEvent_terminal (hc ▸ hterminal) ev
    rw [hreturn (s.onStream _) rfl]
    exact .inl rfl
  | streamError =>
    obtain ⟨sub, -, rfl⟩ := step_streamError h
    exact ⟨iff_of_false (fun ha => (AnalysisStatusState.absorbs_iff hterminal).2.1 (ha rfl)) id,
      harrival rfl⟩
  | streamDone =>
    obtain ⟨sub, -, -, rfl⟩ := step_streamDone h
    exact ⟨iff_of_true (fun _ => .inl rfl) trivial, harrival rfl⟩

end

/-- **Terminal states.** Whatever happens to an analysis that has ended, in any order: nothing that
arrives changes the state, other than a result that cannot be loaded, exactly if the stream does
not fail, and no answer is one that sets another state. -/
theorem terminalState_absorbs_iff (cfg : ControllerConfig) (s : ControllerSys D)
    (hterminal : s.controller.state.statusState.isTerminal = true) (acts : List (ControllerAct D))
    (hacts : AlongRun (ControllerSys.step cfg) (fun s act _ => OfAnalysis s act) s acts) :
    AlongRun (ControllerSys.step cfg) ArrivalAbsorbs s acts ↔
      AlongRun (ControllerSys.step cfg) (fun s act _ => KeepsTerminal s act) s acts := by
  have hstep : ∀ s act s', s.controller.state.statusState.isTerminal = true →
      ControllerSys.step cfg s act = some s' → OfAnalysis (D := D) s act →
      (ArrivalAbsorbs s act s' ↔ KeepsTerminal s act) ∧
        (ArrivalAbsorbs s act s' → s'.controller.state.statusState.isTerminal = true) :=
    fun _ _ _ hi h ho => ControllerSys.step_absorbs hi ho h
  exact AlongRun.iff (Q := fun s act _ => KeepsTerminal s act) hstep hacts hterminal

/-- A completed analysis whose result is still loaded. -/
def completedAnalysis : ControllerSys .integral where
  controller :=
    { state := { statusState := .completed, activeAnalysisId := some [55] }
      sseSubscription := some { analysisId := [55], lastEventId := none, response := some [] } }
  pending := [.completedResult []]

/-- Its stream ends, and the result cannot be loaded. -/
theorem terminalState_absorbs_completed :
    AlongRun (ControllerSys.step ⟨false, none⟩) ArrivalAbsorbs completedAnalysis
      [.streamDone, .reply 0 (.error []) []] := by
  refine (terminalState_absorbs_iff _ _ rfl _ ?_).mpr ?_
  · intro s' h
    cases h
    refine ⟨trivial, fun s' h => ⟨?_, trivial⟩⟩
    intro p hp
    cases hp
    rfl
  · intro s' h
    cases h
    refine ⟨trivial, fun s' h => ⟨?_, trivial⟩⟩
    intro p hp
    cases hp
    exact .inl rfl

/-- The stream of a completed analysis fails. -/
theorem terminalState_not_absorbs : ¬ ∀ (cfg : ControllerConfig)
    (acts : List (ControllerAct .integral)) (s : ControllerSys .integral),
    runSteps (ControllerSys.step cfg) {} acts = some s →
    s.controller.state.statusState.isTerminal = true →
    ∀ later : List (ControllerAct .integral),
      AlongRun (ControllerSys.step cfg) (fun s act _ => OfAnalysis s act) s later →
      AlongRun (ControllerSys.step cfg) ArrivalAbsorbs s later := by
  intro hclaim
  have hrun : (runSteps (ControllerSys.step ⟨false, none⟩) {}
      (submitted [55] (completedStream [55]))).map
        (fun s => (s.controller.state.statusState, s.openSubscription.isSome)) =
      some (.completed, true) := by
    decide +kernel
  obtain ⟨s, hs, heq⟩ := Option.map_eq_some_iff.mp hrun
  obtain ⟨hstatus, hopen⟩ := Prod.mk.inj heq
  obtain ⟨sub, hsub⟩ := Option.isSome_iff_exists.mp hopen
  have hterminal : s.controller.state.statusState.isTerminal = true := by rw [hstatus]; rfl
  have hfail : s.step ⟨false, none⟩ .streamError = some { s with
      controller := (s.onStream { sub with closed := true }).onError } := by
    simp [ControllerSys.step, hsub]
  have hlater := hclaim ⟨false, none⟩ _ s hs hterminal [.streamError]
    fun _ _ => ⟨trivial, trivial⟩
  have habsorbs := (hlater _ hfail).1 rfl
  exact (AnalysisStatusState.absorbs_iff hterminal).2.1 habsorbs

end FinanceIntelligence
