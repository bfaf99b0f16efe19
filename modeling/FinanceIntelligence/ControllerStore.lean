import FinanceIntelligence.ControllerStream

/-!
# The controller and its resume store

`AnalysisController` over `SharedPreferencesAnalysisResumeStore`. A call of the store
reads or writes the preferences when it is made, up to its first `await`; what it does
after that it does later, and several calls may be at that point at once.
`updateSequence` is not awaited by the controller.

The store mirrors the controller in every run whose steps keep it in step:

* `StorePhase` — **where the record is**: there is none and none will be written, it is
  the one of the active analysis, or it is not shown yet;
* `StoreInv.step` — a step that meets the condition keeps one of the three;
* `resumeStore_mirrors` — along a run the store mirrors the controller after every step; a step
  after which a submission is accepted never leaves it so.
-/

namespace FinanceIntelligence

variable {D : DoubleText}

/-- `updateSequence` at its `await`: what it has read, and what it will write. -/
structure StoreUpdate where
  current : Option AnalysisResumeRecord
  sequence : ℤ
  eventId : String

/-- What a function of the controller waits for. -/
inductive Waiting (D : DoubleText) where
  /-- an answer of the server -/
  | api
  /-- an answer that is there -/
  | answer (answer : Reply D)
  /-- `clearIfSessionMismatch`, which has read this record -/
  | mismatch (current : Option AnalysisResumeRecord)

/-- The controller with its store. -/
structure StoredSys (J : PrefsText) (D : DoubleText) where
  controller : AnalysisController D := {}
  /-- its functions at an `await`, and what they wait for -/
  pending : List (Pending D × Waiting D) := []
  /-- the updates at an `await` -/
  updates : List StoreUpdate := []
  /-- the text in the preferences -/
  raw : Option J.Text

/-- What happens. -/
inductive StoredAct (D : DoubleText) where
  /-- to the controller; an answer is one of the server -/
  | controller (act : ControllerAct D)
  /-- the store goes on for the `i`-th function, or the function with the store's answer -/
  | finish (i : ℕ) (now : DartString)
  /-- the `i`-th update goes on -/
  | update (i : ℕ) (now : String)

/-- The app calls `restorePendingAnalysis`. -/
def StoredAct.restores : StoredAct D → Bool
  | .controller .restorePendingAnalysis => true
  | _ => false

/-- The text of the `TypeError` of `write`. -/
def writeTypeError : DartString :=
  dartString ("type '_Map<String, dynamic>' is not a subtype of type " ++
    "'AnalysisResumeRecord' of 'record'")

namespace StoredSys

variable {J : PrefsText} (sha256 : List ℕ → String) (cfg : ControllerConfig)

/-- `read()` of the store. -/
def readRecord (s : StoredSys J D) : Option AnalysisResumeRecord :=
  (SharedPreferencesStore.read J sha256 s.raw).1

/-- The text after a `read()`. -/
def afterRead (s : StoredSys J D) : StoredSys J D :=
  { s with raw := (SharedPreferencesStore.read J sha256 s.raw).2 }

/-- A function starts a call. A map is no `AnalysisResumeRecord`: `write` throws at once. -/
def begin (s : StoredSys J D) : Started D → StoredSys J D
  | .call (.updateSequence sequence eventId) =>
    { s.afterRead sha256 with
      updates := s.updates ++ [{ current := s.readRecord sha256, sequence, eventId }] }
  | .call .markTerminal | .call .clear => { s with raw := none }
  | .call _ => s
  | .await p =>
    match p.storeCall with
    | none => { s with pending := s.pending ++ [(p, .api)] }
    | some (.clearIfSessionMismatch _) =>
      { s.afterRead sha256 with pending := s.pending ++ [(p, .mismatch (s.readRecord sha256))] }
    | some .read =>
      { s.afterRead sha256 with
        pending := s.pending ++ [(p, .answer (.record (s.readRecord sha256)))] }
    | some (.writeMap _) => { s with controller := s.controller.submitFailed writeTypeError }
    | some (.updateSequence _ _) => s
    | some .markTerminal | some .clear =>
      { s with raw := none, pending := s.pending ++ [(p, .answer .done)] }

/-- A function ran up to its next `await`. -/
def perform (s : StoredSys J D) (out : Outcome D) : StoredSys J D :=
  out.2.foldl (begin sha256) { s with controller := out.1 }

/-- `updateSequence` after its `await`. -/
def finishUpdate (s : StoredSys J D) (u : StoreUpdate) (now : String) : StoredSys J D :=
  match u.current with
  | none => s
  | some current =>
    if u.sequence < current.lastAppliedSequence then s
    else
      let updated := current.advance u.sequence (some u.eventId) now
      { s with raw := SharedPreferencesStore.write J sha256 updated }

/-- `clearIfSessionMismatch` after its `await`. -/
def finishMismatch (s : StoredSys J D) (fingerprint : String)
    (current : Option AnalysisResumeRecord) : StoredSys J D :=
  match current with
  | none => s
  | some current =>
    if current.sessionBindingFingerprint ≠ fingerprint then { s with raw := none } else s

/-- The `i`-th function goes on. -/
def erase (s : StoredSys J D) (i : ℕ) : StoredSys J D :=
  { s with pending := s.pending.eraseIdx i }

/-- The controller without its store. -/
def bare (s : StoredSys J D) : ControllerSys D := { controller := s.controller }

/-- One step. -/
def step (s : StoredSys J D) : StoredAct D → Option (StoredSys J D)
  | .controller (.reply i answer now) =>
    match s.pending[i]? with
    | some (p, .api) => (s.controller.resume cfg now p answer).map ((s.erase i).perform sha256)
    | _ => none
  | .controller (.submitAnalysis prompt key documentIds) =>
    some (s.perform sha256 (s.controller.submitAnalysis prompt key documentIds))
  | .controller .restorePendingAnalysis =>
    some (s.perform sha256 (s.controller.restorePendingAnalysis cfg))
  | .controller (.fetchClarificationDetails id) =>
    some (s.perform sha256 (s.controller.fetchClarificationDetails id))
  | .controller (.submitClarification id key payload) =>
    some (s.perform sha256 (s.controller.submitClarification id key payload))
  | .controller (.cancelClarification id key) =>
    some (s.perform sha256 (s.controller.cancelClarification id key))
  | .controller .refreshActiveSnapshot =>
    some (s.perform sha256 s.controller.refreshActiveSnapshot)
  | .controller .cancelCurrentAnalysis =>
    some (s.perform sha256 (s.controller.cancelCurrentAnalysis cfg))
  | .controller .event => do
    let sub ← s.bare.openSubscription
    match sub.response with
    | some (ev :: rest) =>
      let sub := { sub with response := some rest, delivered := sub.delivered ++ [ev.sequence] }
      return s.perform sha256 ((s.bare.onStream sub).handleDomainEvent cfg ev)
    | _ => none
  | .controller act => (s.bare.step cfg act).map fun b => { s with controller := b.controller }
  | .finish i now =>
    match s.pending[i]? with
    | some (p, .answer answer) =>
      (s.controller.resume cfg now p answer).map ((s.erase i).perform sha256)
    | some (.restoreSession fingerprint, .mismatch current) =>
      some { s.finishMismatch fingerprint current with
        pending := s.pending.set i (.restoreSession fingerprint, .answer .done) }
    | _ => none
  | .update i now =>
    match s.updates[i]? with
    | some u =>
      let rest := { s with updates := s.updates.eraseIdx i }
      some (rest.finishUpdate sha256 u now)
    | none => none

end StoredSys

/-! ## What is pending -/

/-- A function of `restorePendingAnalysis` before it shows the record. -/
def Pending.restoring : Pending D → Bool
  | .restoreSession _ | .restoreRead | .restoreJob _ => true
  | _ => false

/-- A function after which the analysis has ended; a submission is one where it fails. -/
def Pending.ends : Pending D → Bool
  | .createAnalysis _ _ _ | .restoreEnded _ _ => true
  | _ => false

/-- Such a function is at an `await`. -/
def AwaitsSome (f : Pending D → Bool) (l : List (Pending D × Waiting D)) : Prop :=
  ∃ e ∈ l, f e.1 = true

section

variable {J : PrefsText} (sha256 : List ℕ → String) (s : StoredSys J D)

/-- Nothing is awaited any more, by the controller or in the store. -/
def StoreSettled : Prop := s.pending = [] ∧ s.updates = []

/-- No update will write a record. -/
def UpdatesDead : Prop := ∀ u ∈ s.updates, u.current = none

/-- No record is held, and none will be. -/
def NoRecord : Prop := s.readRecord sha256 = none ∧ UpdatesDead s

/-- No analysis runs, or a function that goes on will end it. -/
def Idle : Prop :=
  s.controller.state.activeAnalysisId = none ∨
    s.controller.state.statusState.isTerminal = true ∨ AwaitsSome Pending.ends s.pending

/-- An analysis may be shown as running: its record is held, or it will be ended. -/
def MayRun : Prop :=
  s.readRecord sha256 ≠ none ∨ s.controller.state.activeAnalysisId = none ∨
    AwaitsSome Pending.ends s.pending

/-! ## Mirroring, and what keeps it -/

/-- The store holds a record exactly for the active analysis that has not ended, and it has the
last applied sequence. -/
def StoreMirrors : Prop :=
  (∀ r, s.readRecord sha256 = some r →
    s.controller.state.activeAnalysisId = some (dartString r.analysisId) ∧
      s.controller.state.statusState.isTerminal = false ∧
      r.lastAppliedSequence = s.controller.state.lastAppliedSequence) ∧
  ∀ id, s.controller.state.activeAnalysisId = some id →
    s.controller.state.statusState.isTerminal = false →
    ∃ r, s.readRecord sha256 = some r ∧ dartString r.analysisId = id ∧
      r.lastAppliedSequence = s.controller.state.lastAppliedSequence

/-- The server accepts a submission as the job `id`. -/
def AcceptedAs (act : StoredAct D) (id : DartString) : Prop :=
  ∃ i prompt key documentIds status now,
    act = .controller (.reply i (.job id status) now) ∧
      s.pending[i]? = some (.createAnalysis prompt key documentIds, .api)

/-- The controller follows the job: it has not failed, and it is subscribed or will be. -/
def FollowsJob (id : DartString) : Prop :=
  s.controller.state.statusState ≠ .failedTerminal ∧
    (StreamOpen s.controller id ∨ SubscriptionPending (s.pending.map Prod.fst) id)

/-- **A step leaves the store in step with the controller.** If a submission is accepted by it, the
controller follows the new job from here on; and as soon as nothing is left to be written, the store
holds a record exactly if an analysis is active, namely its record with the sequence that was applied
last. While an update still waits at its `await`, nothing is said of the store. -/
def StepMirrors (s : StoredSys J D) (act : StoredAct D) (s' : StoredSys J D) : Prop :=
  (∀ id, AcceptedAs s act id → FollowsJob s' id) ∧ (StoreSettled s' → StoreMirrors sha256 s')

/-- An answer that keeps the store in step. -/
def AnswerKeepsStore : Pending D → Reply D → Prop
  -- the record of an accepted submission is not written
  | .createAnalysis _ _ _, .job _ _ => False
  -- what fails while a record is held leaves it
  | .createAnalysis _ _ _, .error _ | .completedResult _, .error _ =>
    NoRecord sha256 s ∨ s.controller.state.activeAnalysisId = none
  | .respond _ _ _ _, .job _ _ => MayRun sha256 s
  -- an update that is pending would write the record again
  | .cancelClarification _ _ _, .job _ _ => UpdatesDead s
  | .snapshot _, .job _ status => status = dartString "COMPLETED" → UpdatesDead s
  | .restoreJob record, .job _ status =>
    UpdatesDead s ∧
      (status = dartString "COMPLETED" ∨ status = dartString "FAILED" ∨
        status = dartString "CANCELLED" ∨ status = dartString "EXPIRED" ∨
        s.readRecord sha256 = some record)
  | .restoreJob _, .error _ => UpdatesDead s ∧ Idle s
  | _, _ => True

/-- An event that keeps the store in step: the last event comes where no record is held, and
another one where the analysis may run. -/
def EventKeepsStore (cfg : ControllerConfig) (ev : AnalysisDomainEventModel D) : Prop :=
  AnalysisController.admits s.controller.state ev = true →
  AnalysisController.hasGap s.controller.state ev = false →
    if (AnalysisController.switchEvent cfg s.controller.state ev).1.isTerminal then
      NoRecord sha256 s
    else MayRun sha256 s

/-- **The condition.** A record that the store holds at the start is restored first; answers and
events keep the store in step; the stream does not fail, and the user does not cancel, where
that leaves or brings back a record; a record of another session is not cleared while an
analysis runs; and of the updates that are pending the last one goes on last. -/
def KeepsStore (cfg : ControllerConfig) (s : StoredSys J D) (act : StoredAct D) : Prop :=
  (s.readRecord sha256 = none ∨ s.controller.state.activeAnalysisId ≠ none ∨
    AwaitsSome Pending.restoring s.pending ∨ act.restores = true) ∧
  match act with
  | .controller (.reply i answer _) =>
    ∀ e ∈ s.pending[i]?, AnswerKeepsStore sha256 s e.1 answer
  | .controller .event =>
    ∀ sub ∈ s.bare.openSubscription, ∀ ev ∈ sub.response.bind List.head?,
      EventKeepsStore sha256 s cfg ev
  | .controller .streamError => MayRun sha256 s
  | .controller .cancelCurrentAnalysis => UpdatesDead s
  | .finish i _ =>
    match s.pending[i]? with
    | some (.restoreSession fingerprint, .mismatch (some current)) =>
      current.sessionBindingFingerprint ≠ fingerprint → UpdatesDead s ∧ Idle s
    | _ => True
  | .update i _ => UpdatesDead s ∨ i = 0 ∨ i + 1 < s.updates.length
  | _ => True

instance : Decidable (UpdatesDead s) := inferInstanceAs (Decidable (∀ u ∈ s.updates, _ = none))

instance (f : Pending D → Bool) (l : List (Pending D × Waiting D)) : Decidable (AwaitsSome f l) :=
  inferInstanceAs (Decidable (∃ e ∈ l, _ = true))

instance : Decidable (NoRecord sha256 s) := inferInstanceAs (Decidable (_ ∧ UpdatesDead s))

instance : Decidable (Idle s) := inferInstanceAs (Decidable (_ = none ∨ _ = true ∨ AwaitsSome _ _))

instance : Decidable (MayRun sha256 s) :=
  inferInstanceAs (Decidable (_ ≠ none ∨ _ = none ∨ AwaitsSome _ _))

instance (p : Pending D) (answer : Reply D) : Decidable (AnswerKeepsStore sha256 s p answer) := by
  unfold AnswerKeepsStore
  split <;> infer_instance

instance (cfg : ControllerConfig) (ev : AnalysisDomainEventModel D) :
    Decidable (EventKeepsStore sha256 s cfg ev) := by
  unfold EventKeepsStore
  infer_instance

instance (cfg : ControllerConfig) (s : StoredSys J D) (act : StoredAct D) :
    Decidable (KeepsStore sha256 cfg s act) := by
  unfold KeepsStore
  refine @instDecidableAnd _ _ _ ?_
  split
  case h_5 => split <;> infer_instance
  all_goals infer_instance

/-! ## The invariant -/

/-- What a function at an `await` rests on. -/
def EntryOk : Pending D × Waiting D → Prop
  | (.clarification _ (some _), .api) => s.controller.state.activeAnalysisId ≠ none
  | (.restoreRead, .answer (.record record)) => record = none → NoRecord sha256 s
  | (.restoreEnded _ _, .answer .done) => NoRecord sha256 s
  | (.restoreSession _, .mismatch _) | (.restoreSession _, .answer .done)
  | (.cancelClarificationStored, .answer .done) | (.snapshotStored _, .answer .done)
  | (.cancelStored _, .answer .done) | (.restoreCompleted _, .answer .done)
  | (.restoreCleared, .answer .done) => True
  | (p, .api) => p.storeCall = none
  | _ => False

/-- The record of the active analysis `id` is on the way to the last applied sequence. -/
structure Tracked (id : DartString) : Prop where
  /-- it is the active one -/
  active : s.controller.state.activeAnalysisId = some id
  /-- it runs -/
  running : s.controller.state.statusState.isTerminal = false
  record : ∃ r, s.readRecord sha256 = some r ∧ dartString r.analysisId = id ∧
    r.lastAppliedSequence ≤ s.controller.state.lastAppliedSequence ∧
    (s.updates = [] → r.lastAppliedSequence = s.controller.state.lastAppliedSequence)
  /-- the updates are of the record -/
  updates : ∀ u ∈ s.updates, 0 ≤ u.sequence ∧
    u.sequence ≤ s.controller.state.lastAppliedSequence ∧
    ∃ r, u.current = some r ∧ r.Valid ∧ dartString r.analysisId = id ∧
      r.lastAppliedSequence ≤ s.controller.state.lastAppliedSequence
  /-- the last of them brings the last applied sequence -/
  last : ∀ u ∈ s.updates.getLast?, u.sequence = s.controller.state.lastAppliedSequence

/-- The record is not shown yet. -/
structure Unshown : Prop where
  /-- no analysis is active -/
  active : s.controller.state.activeAnalysisId = none
  /-- nothing is subscribed -/
  subscription : s.controller.sseSubscription = none
  /-- nothing is updated -/
  updates : s.updates = []
  /-- it is about to be shown -/
  restoring : AwaitsSome Pending.restoring s.pending

/-- Where the record is. -/
inductive StorePhase : Prop
  /-- there is none, and none is needed -/
  | gone (record : NoRecord sha256 s) (idle : Idle s)
  /-- it is the one of the active analysis -/
  | tracked (id : DartString) (h : Tracked sha256 s id)
  /-- it is not shown yet -/
  | unshown (h : Unshown s)

/-- What the condition keeps. -/
structure StoreInv : Prop where
  /-- what the functions rest on -/
  entries : ∀ e ∈ s.pending, EntryOk sha256 s e
  /-- where the record is -/
  phase : StorePhase sha256 s

end

section

variable {J : PrefsText} {sha256 : List ℕ → String} {s s' : StoredSys J D}

/-- The invariant says that a settled store mirrors the controller. -/
theorem StoreInv.mirrors (h : StoreInv sha256 s) (hsettled : StoreSettled s) :
    StoreMirrors sha256 s := by
  obtain ⟨hpending, hupdates⟩ := hsettled
  have hawaits : ∀ f, ¬ AwaitsSome f s.pending := by
    rintro f ⟨e, he, -⟩
    rw [hpending] at he
    exact absurd he List.not_mem_nil
  cases h.phase with
  | gone hno hidle =>
    refine ⟨fun r hr => absurd (hno.1.symm.trans hr) (by simp), fun id hactive hrunning => ?_⟩
    obtain hidle | hidle | hidle := hidle
    · exact absurd (hidle.symm.trans hactive) (by simp)
    · exact absurd (hidle.symm.trans hrunning) (by simp)
    · exact absurd hidle (hawaits _)
  | tracked id h =>
    obtain ⟨r, hr, hid, -, hseq⟩ := h.record
    constructor
    · intro r' hr'
      obtain rfl := Option.some.inj (hr.symm.trans hr')
      exact ⟨hid ▸ h.active, h.running, hseq hupdates⟩
    · intro id' hactive _
      obtain rfl := Option.some.inj (h.active.symm.trans hactive)
      exact ⟨r, hr, hid, hseq hupdates⟩
  | unshown h => exact absurd h.restoring (hawaits _)

/-! ### What stays -/

/-- A text that was read is read again. -/
theorem SharedPreferencesStore.read_read {raw : Option J.Text} :
    read J sha256 (read J sha256 raw).2 = read J sha256 raw := by
  cases raw with
  | none => rfl
  | some text =>
    by_cases hempty : J.isEmpty text = true
    · simp [read, hempty]
    · cases hdecode : J.decode text with
      | none => simp [read, hempty, hdecode]
      | some o =>
        cases hrecord : AnalysisResumeRecord.fromJson sha256 o <;>
          simp [read, hempty, hdecode, hrecord]

/-- What is read is valid. -/
theorem SharedPreferencesStore.valid_of_read {raw : Option J.Text} {r : AnalysisResumeRecord}
    (h : (read J sha256 raw).1 = some r) : r.Valid := by
  cases raw with
  | none => cases h
  | some text =>
    by_cases hempty : J.isEmpty text = true
    · simp [read, hempty] at h
    · cases hdecode : J.decode text with
      | none => simp [read, hempty, hdecode] at h
      | some o =>
        cases hrecord : AnalysisResumeRecord.fromJson sha256 o with
        | error e => simp [read, hempty, hdecode, hrecord] at h
        | ok record =>
          obtain rfl : record = r := by simpa [read, hempty, hdecode, hrecord] using h
          exact (AnalysisResumeRecord.fromJson_eq_ok.mp hrecord).valid

theorem AwaitsSome.mono {f : Pending D → Bool} {l m : List (Pending D × Waiting D)}
    (h : AwaitsSome f l) (hsub : ∀ e ∈ l, e ∈ m) : AwaitsSome f m := by
  obtain ⟨e, he, hf⟩ := h
  exact ⟨e, hsub e he, hf⟩

theorem AwaitsSome.append {f : Pending D → Bool} {l m : List (Pending D × Waiting D)}
    (h : AwaitsSome f l) : AwaitsSome f (l ++ m) :=
  h.mono fun _ => List.mem_append_left _

/-- What is awaited still is when another function goes on. -/
theorem AwaitsSome.erase {f : Pending D → Bool} {l : List (Pending D × Waiting D)} {i : ℕ}
    {e : Pending D × Waiting D} (h : AwaitsSome f l) (he : l[i]? = some e) (hf : f e.1 = false) :
    AwaitsSome f (l.eraseIdx i) := by
  obtain ⟨e', he', hf'⟩ := h
  obtain ⟨j, hj⟩ := List.mem_iff_getElem?.mp he'
  refine ⟨e', List.mem_eraseIdx_iff_getElem?.mpr ⟨j, ?_, hj⟩, hf'⟩
  rintro rfl
  obtain rfl := Option.some.inj (he.symm.trans hj)
  rw [hf] at hf'
  cases hf'

/-- What ends the analysis is still awaited. -/
theorem Idle.erase {i : ℕ} {e : Pending D × Waiting D} (h : Idle s) (he : s.pending[i]? = some e)
    (hends : e.1.ends = false) : Idle (s.erase i) :=
  h.imp_right (Or.imp_right fun ha => ha.erase he hends)

/-- After a `read()` the same is read. -/
theorem StoredSys.readRecord_afterRead (s : StoredSys J D) :
    (s.afterRead sha256).readRecord sha256 = s.readRecord sha256 :=
  congrArg Prod.fst SharedPreferencesStore.read_read

/-- What the functions rest on stays. -/
theorem EntryOk.mono {e : Pending D × Waiting D} (h : EntryOk sha256 s e)
    (hgone : NoRecord sha256 s → NoRecord sha256 s')
    (hactive : s.controller.state.activeAnalysisId ≠ none →
      s'.controller.state.activeAnalysisId ≠ none) : EntryOk sha256 s' e := by
  unfold EntryOk at h ⊢
  split at h
  · exact hactive h
  · exact fun hr => hgone (h hr)
  · exact hgone h
  all_goals trivial

/-- The functions at an `await` after a step rest on what they need. -/
theorem StoreInv.entries_of (h : StoreInv sha256 s) (hgone : NoRecord sha256 s → NoRecord sha256 s')
    (hactive : s.controller.state.activeAnalysisId ≠ none →
      s'.controller.state.activeAnalysisId ≠ none)
    (hentries : ∀ e ∈ s'.pending, e ∈ s.pending ∨ EntryOk sha256 s' e) :
    ∀ e ∈ s'.pending, EntryOk sha256 s' e := by
  intro e he
  obtain hold | hnew := hentries e he
  · exact (h.entries e hold).mono hgone hactive
  · exact hnew

/-- **The record stays**, and so does the analysis; its status may be another one. -/
theorem StoreInv.same (h : StoreInv sha256 s)
    (hread : s'.readRecord sha256 = s.readRecord sha256) (hupdates : s'.updates = s.updates)
    (hactive : s'.controller.state.activeAnalysisId = s.controller.state.activeAnalysisId)
    (hlast : s'.controller.state.lastAppliedSequence = s.controller.state.lastAppliedSequence)
    (hsub : s.controller.state.activeAnalysisId = none →
      s.controller.sseSubscription = none → s'.controller.sseSubscription = none)
    (hidle : NoRecord sha256 s → Idle s → Idle s')
    (hrunning : s.readRecord sha256 ≠ none → s.controller.state.activeAnalysisId ≠ none →
      s.controller.state.statusState.isTerminal = false →
        s'.controller.state.statusState.isTerminal = false)
    (hentries : ∀ e ∈ s'.pending, e ∈ s.pending ∨ EntryOk sha256 s' e)
    (hrestoring : s.controller.state.activeAnalysisId = none →
      AwaitsSome Pending.restoring s.pending →
        AwaitsSome Pending.restoring s'.pending ∨ NoRecord sha256 s) :
    StoreInv sha256 s' := by
  have hgone : NoRecord sha256 s → NoRecord sha256 s' := fun hno =>
    ⟨hread.trans hno.1, fun u hu => hno.2 u (hupdates ▸ hu)⟩
  refine ⟨h.entries_of hgone (fun hne => hactive ▸ hne) hentries, ?_⟩
  cases h.phase with
  | gone hno hi => exact .gone (hgone hno) (hidle hno hi)
  | tracked id ht =>
    obtain ⟨r, hr, hid, hle, hseq⟩ := ht.record
    refine .tracked id
      { active := hactive.trans ht.active
        running := hrunning (by simp [hr]) (by simp [ht.active]) ht.running
        record := ⟨r, hread.trans hr, hid, hlast ▸ hle, fun hu => hlast ▸ hseq (hupdates ▸ hu)⟩
        updates := ?_
        last := ?_ }
    · rw [hupdates, hlast]
      exact ht.updates
    · rw [hupdates, hlast]
      exact ht.last
  | unshown hu =>
    obtain hr | hno := hrestoring hu.active hu.restoring
    · exact .unshown ⟨hactive.trans hu.active, hsub hu.active hu.subscription,
        hupdates.trans hu.updates, hr⟩
    · exact .gone (hgone hno) (.inl (hactive.trans hu.active))

/-- **The record is cleared** where no update writes it again. -/
theorem StoreInv.cleared (h : StoreInv sha256 s) (hdead : UpdatesDead s)
    (hread : s'.readRecord sha256 = none) (hupdates : s'.updates = s.updates)
    (hidle : Idle s')
    (hactive : s.controller.state.activeAnalysisId ≠ none →
      s'.controller.state.activeAnalysisId ≠ none)
    (hentries : NoRecord sha256 s' → ∀ e ∈ s'.pending, e ∈ s.pending ∨ EntryOk sha256 s' e) :
    StoreInv sha256 s' := by
  have hno : NoRecord sha256 s' := ⟨hread, fun u hu => hdead u (hupdates ▸ hu)⟩
  exact ⟨h.entries_of (fun _ => hno) hactive (hentries hno), .gone hno hidle⟩

/-- **A function fails** where no record is left: the analysis has ended. -/
theorem StoreInv.failed (h : StoreInv sha256 s)
    (hcond : NoRecord sha256 s ∨ s.controller.state.activeAnalysisId = none)
    {c : AnalysisController D} {i : ℕ} {e : Pending D × Waiting D} (he : s.pending[i]? = some e)
    (hp : e.1.restoring = false) (hterminal : c.state.statusState.isTerminal = true)
    (hactive : c.state.activeAnalysisId = s.controller.state.activeAnalysisId)
    (hlast : c.state.lastAppliedSequence = s.controller.state.lastAppliedSequence)
    (hsub : c.sseSubscription = s.controller.sseSubscription) :
    StoreInv sha256 { s.erase i with controller := c } := by
  refine h.same rfl rfl hactive hlast (fun _ => hsub.trans) (fun _ _ => .inr (.inl hterminal)) ?_
    (fun e he => .inl (List.mem_of_mem_eraseIdx he)) fun _ hr => .inl (hr.erase he hp)
  intro hrecord hne
  obtain hno | hnone := hcond
  · exact absurd hno.1 hrecord
  · exact absurd hnone hne

/-- **A function goes on**, or starts: the record stays. -/
theorem StoreInv.goes_on (h : StoreInv sha256 s) {c : AnalysisController D}
    {rest new : List (Pending D × Waiting D)} (hsub : ∀ e ∈ rest, e ∈ s.pending)
    (hends : AwaitsSome Pending.ends s.pending → AwaitsSome Pending.ends rest)
    (hrestoring : AwaitsSome Pending.restoring s.pending → AwaitsSome Pending.restoring rest)
    (hnew : ∀ e ∈ new, ∀ t : StoredSys J D, EntryOk sha256 t e)
    (hactive : c.state.activeAnalysisId = s.controller.state.activeAnalysisId)
    (hlast : c.state.lastAppliedSequence = s.controller.state.lastAppliedSequence)
    (hstream : s.controller.state.activeAnalysisId = none →
      s.controller.sseSubscription = none → c.sseSubscription = none)
    (hstatus : c.state.statusState = s.controller.state.statusState ∨
      c.state.statusState.isTerminal = false ∧ (MayRun sha256 s ∨ AwaitsSome Pending.ends new)) :
    StoreInv sha256 { s with controller := c, pending := rest ++ new } := by
  refine h.same rfl rfl hactive hlast hstream ?_ ?_ ?_ fun _ hr => .inl (hrestoring hr).append
  · intro hno hidle
    have hends' : AwaitsSome Pending.ends s.pending → AwaitsSome Pending.ends (rest ++ new) :=
      fun he => (hends he).append
    obtain hidle | hidle | hidle := hidle
    · exact .inl (hactive.trans hidle)
    · obtain hsame | ⟨-, hmay | hnew⟩ := hstatus
      · exact .inr (.inl (hsame ▸ hidle))
      · obtain hr | hnone | he := hmay
        · exact absurd hno.1 hr
        · exact .inl (hactive.trans hnone)
        · exact .inr (.inr (hends' he))
      · exact .inr (.inr (hnew.mono fun e he => List.mem_append_right _ he))
    · exact .inr (.inr (hends' hidle))
  · intro _ _ hrunning
    obtain hsame | ⟨hstatus, -⟩ := hstatus
    · exact hsame ▸ hrunning
    · exact hstatus
  · intro e he
    obtain he | he := List.mem_append.mp he
    · exact .inl (hsub e he)
    · exact .inr (hnew e he _)

/-- **A function goes on** after its `await`, and neither ends nor restores the analysis. -/
theorem StoreInv.resumed (h : StoreInv sha256 s) {c : AnalysisController D} {i : ℕ}
    {e : Pending D × Waiting D} {new : List (Pending D × Waiting D)} (he : s.pending[i]? = some e)
    (hends : e.1.ends = false) (hrestoring : e.1.restoring = false)
    (hnew : ∀ e ∈ new, ∀ t : StoredSys J D, EntryOk sha256 t e)
    (hactive : c.state.activeAnalysisId = s.controller.state.activeAnalysisId)
    (hlast : c.state.lastAppliedSequence = s.controller.state.lastAppliedSequence)
    (hstream : s.controller.state.activeAnalysisId = none →
      s.controller.sseSubscription = none → c.sseSubscription = none)
    (hstatus : c.state.statusState = s.controller.state.statusState ∨
      c.state.statusState.isTerminal = false ∧ MayRun sha256 s) :
    StoreInv sha256 { s with controller := c, pending := s.pending.eraseIdx i ++ new } :=
  h.goes_on (fun _ => List.mem_of_mem_eraseIdx) (fun ha => ha.erase he hends)
    (fun ha => ha.erase he hrestoring) hnew hactive hlast hstream
    (hstatus.imp_right fun hs => ⟨hs.1, .inl hs.2⟩)

/-- It starts no other call. -/
theorem StoreInv.returned (h : StoreInv sha256 s) {c : AnalysisController D} {i : ℕ}
    {e : Pending D × Waiting D} (he : s.pending[i]? = some e)
    (hends : e.1.ends = false) (hrestoring : e.1.restoring = false)
    (hactive : c.state.activeAnalysisId = s.controller.state.activeAnalysisId)
    (hlast : c.state.lastAppliedSequence = s.controller.state.lastAppliedSequence)
    (hstream : s.controller.state.activeAnalysisId = none →
      s.controller.sseSubscription = none → c.sseSubscription = none)
    (hstatus : c.state.statusState = s.controller.state.statusState ∨
      c.state.statusState.isTerminal = false ∧ MayRun sha256 s) :
    StoreInv sha256 { s.erase i with controller := c } := by
  have hnil : ∀ e ∈ ([] : List (Pending D × Waiting D)), ∀ t : StoredSys J D, EntryOk sha256 t e :=
    fun _ he => absurd he List.not_mem_nil
  simpa [StoredSys.erase] using
    h.resumed he hends hrestoring hnil hactive hlast hstream hstatus

/-- **The record is shown** as it is held. -/
theorem StoreInv.shown (h : StoreInv sha256 s) {r : AnalysisResumeRecord} {i : ℕ}
    {new : List (Pending D × Waiting D)}
    (hdead : UpdatesDead s) (hread : s.readRecord sha256 = some r) {c : AnalysisController D}
    (hactive : c.state.activeAnalysisId = some (dartString r.analysisId))
    (hlast : c.state.lastAppliedSequence = r.lastAppliedSequence)
    (hrunning : c.state.statusState.isTerminal = false)
    (hnew : ∀ e ∈ new, ∀ t : StoredSys J D, t.controller.state.activeAnalysisId ≠ none →
      EntryOk sha256 t e) :
    StoreInv sha256 { s with controller := c, pending := s.pending.eraseIdx i ++ new } := by
  have hupdates : s.updates = [] := by
    cases h.phase with
    | gone hno => exact absurd (hno.1.symm.trans hread) (by simp)
    | tracked id ht =>
      refine List.eq_nil_iff_forall_not_mem.mpr fun u hu => ?_
      obtain ⟨-, -, r', hr', -⟩ := ht.updates u hu
      exact absurd ((hdead u hu).symm.trans hr') (by simp)
    | unshown hu => exact hu.updates
  have hne : c.state.activeAnalysisId ≠ none := by simp [hactive]
  refine ⟨h.entries_of (fun hno => ?_) (fun _ => hne) ?_, .tracked _
    { active := hactive
      running := hrunning
      record := ⟨r, hread, rfl, Int.le_of_eq hlast.symm, fun _ => hlast.symm⟩
      updates := ?_
      last := ?_ }⟩
  · exact absurd (hno.1.symm.trans hread) (by simp)
  · intro e he
    obtain he | he := List.mem_append.mp he
    · exact .inl (List.mem_of_mem_eraseIdx he)
    · exact .inr (hnew e he _ hne)
  · intro u hu
    rw [hupdates] at hu
    exact absurd hu List.not_mem_nil
  · intro u hu
    rw [hupdates] at hu
    cases hu

/-! ### Steps -/

/-- The controller was constructed with the store, and with a fingerprint. -/
def storeConfig (fingerprint : String) : ControllerConfig := ⟨true, some fingerprint⟩

variable {fingerprint : String}

theorem List.forall_eraseIdx_append {α : Type} {P : α → Prop} {l new : List α} {i : ℕ}
    (hnew : ∀ e ∈ new, P e) : ∀ e ∈ l.eraseIdx i ++ new, e ∈ l ∨ P e := by
  intro e he
  obtain he | he := List.mem_append.mp he
  · exact .inl (List.mem_of_mem_eraseIdx he)
  · exact .inr (hnew e he)

/-- **The answer to `getAnalysis`** of a restored record. -/
theorem StoreInv.restored (h : StoreInv sha256 s) {i : ℕ} {record : AnalysisResumeRecord}
    {status : DartString} (hdead : UpdatesDead s)
    (hkeeps : status = dartString "COMPLETED" ∨ status = dartString "FAILED" ∨
      status = dartString "CANCELLED" ∨ status = dartString "EXPIRED" ∨
      s.readRecord sha256 = some record) :
    StoreInv sha256 ((s.erase i).perform sha256 (s.controller.restoreFromJob record status)) := by
  unfold AnalysisController.restoreFromJob
  by_cases hcompleted : status = dartString "COMPLETED"
  · rw [if_pos hcompleted]
    refine h.cleared hdead rfl rfl (.inr (.inl rfl)) (fun _ => nofun) fun _ =>
      List.forall_eraseIdx_append (List.forall_mem_singleton.mpr trivial)
  rw [if_neg hcompleted]
  by_cases hclarification : status = dartString "NEEDS_CLARIFICATION"
  · rw [if_pos hclarification]
    have hread : s.readRecord sha256 = some record := by
      subst hclarification
      exact hkeeps.resolve_left hcompleted |>.resolve_left (by decide)
        |>.resolve_left (by decide) |>.resolve_left (by decide)
    exact h.shown hdead hread rfl rfl rfl (List.forall_mem_singleton.mpr fun _ ht => ht)
  rw [if_neg hclarification]
  by_cases hended : status = dartString "FAILED" ∨ status = dartString "CANCELLED" ∨
    status = dartString "EXPIRED"
  · rw [if_pos hended]
    exact h.cleared hdead rfl rfl
      (.inr (.inr ⟨_, List.mem_append_right _ (List.mem_singleton_self _), rfl⟩)) id
      fun hno => List.forall_eraseIdx_append (List.forall_mem_singleton.mpr hno)
  · rw [if_neg hended]
    have hread : s.readRecord sha256 = some record := by
      obtain hs | hs | hs | hs | hread := hkeeps
      · exact absurd hs hcompleted
      · exact absurd (.inl hs) hended
      · exact absurd (.inr (.inl hs)) hended
      · exact absurd (.inr (.inr hs)) hended
      · exact hread
    have hnil : ∀ e ∈ ([] : List (Pending D × Waiting D)), ∀ t : StoredSys J D,
        t.controller.state.activeAnalysisId ≠ none → EntryOk sha256 t e :=
      fun _ he => absurd he List.not_mem_nil
    have hinv := h.shown (i := i) hdead hread
      (c := (s.controller.restoreState .understanding record).subscribeToRecord record)
      rfl rfl rfl hnil
    simpa [StoredSys.erase, StoredSys.perform] using hinv

/-- **An answer of the server.** -/
theorem StoreInv.reply (h : StoreInv sha256 s) {i : ℕ} {p : Pending D} {answer : Reply D}
    {now : DartString} {out : Outcome D} (hp : s.pending[i]? = some (p, .api))
    (hkeeps : AnswerKeepsStore sha256 s p answer)
    (hout : s.controller.resume (storeConfig fingerprint) now p answer = some out) :
    StoreInv sha256 ((s.erase i).perform sha256 out) := by
  have hok := h.entries _ (List.mem_of_getElem? hp)
  cases p with
  | createAnalysis prompt key documentIds =>
    cases answer with
    | job id status => exact hkeeps.elim
    | error text =>
      cases hout
      exact h.failed hkeeps hp rfl rfl rfl rfl rfl
    | data _ => cases hout
    | record _ => cases hout
    | done => cases hout
  | clarification job restored =>
    have hreturned : ∀ c : AnalysisController D,
        c.state.activeAnalysisId = s.controller.state.activeAnalysisId →
        c.state.lastAppliedSequence = s.controller.state.lastAppliedSequence →
        c.state.statusState = s.controller.state.statusState →
        c.sseSubscription = s.controller.sseSubscription →
        StoreInv sha256 { s.erase i with controller := restored.elim c c.subscribeToRecord } := by
      intro c hactive hlast hstatus hsub
      cases restored with
      | none => exact h.returned hp rfl rfl hactive hlast (fun _ => hsub.trans) (.inl hstatus)
      | some record =>
        exact h.returned hp rfl rfl hactive hlast (fun hnone => absurd hnone hok) (.inl hstatus)
    cases answer with
    | data map =>
      cases hout
      exact hreturned _ rfl rfl rfl rfl
    | error text =>
      cases hout
      exact hreturned _ rfl rfl rfl rfl
    | job _ _ => cases hout
    | record _ => cases hout
    | done => cases hout
  | respond job clarificationId key payload =>
    cases answer with
    | job _ _ =>
      cases hout
      exact h.returned hp rfl rfl rfl rfl (fun _ => id) (.inr ⟨rfl, hkeeps⟩)
    | error text =>
      cases hout
      exact h.returned hp rfl rfl rfl rfl (fun _ => id) (.inl rfl)
    | data _ => cases hout
    | record _ => cases hout
    | done => cases hout
  | cancelClarification job clarificationId key =>
    cases answer with
    | job _ _ =>
      cases hout
      exact h.cleared hkeeps rfl rfl (.inr (.inl rfl)) (fun hne => hne) fun _ =>
        List.forall_eraseIdx_append (List.forall_mem_singleton.mpr trivial)
    | error text =>
      cases hout
      exact h.returned hp rfl rfl rfl rfl (fun _ => id) (.inl rfl)
    | data _ => cases hout
    | record _ => cases hout
    | done => cases hout
  | snapshot job =>
    cases answer with
    | job _ status =>
      by_cases hstatus : status = dartString "COMPLETED"
      · simp only [AnalysisController.resume, if_pos hstatus, storeConfig, if_true] at hout
        cases hout
        exact h.cleared (hkeeps hstatus) rfl rfl (.inr (.inl rfl)) (fun hne => hne) fun _ =>
          List.forall_eraseIdx_append (List.forall_mem_singleton.mpr trivial)
      · simp only [AnalysisController.resume, if_neg hstatus] at hout
        cases hout
        exact h.returned hp rfl rfl rfl rfl (fun _ => id) (.inl rfl)
    | error text =>
      cases hout
      exact h.returned hp rfl rfl rfl rfl (fun _ => id) (.inl rfl)
    | data _ => cases hout
    | record _ => cases hout
    | done => cases hout
  | completedResult job =>
    cases answer with
    | data map =>
      cases hout
      exact h.returned hp rfl rfl rfl rfl (fun _ => id) (.inl rfl)
    | error text =>
      cases hout
      exact h.failed hkeeps hp rfl rfl rfl rfl rfl
    | job _ _ => cases hout
    | record _ => cases hout
    | done => cases hout
  | cancelAnalysis job =>
    cases answer with
    | job _ _ =>
      cases hout
      exact h.returned hp rfl rfl rfl rfl (fun _ => id) (.inl rfl)
    | error text =>
      cases hout
      exact h.returned hp rfl rfl rfl rfl (fun _ => id) (.inl rfl)
    | data _ => cases hout
    | record _ => cases hout
    | done => cases hout
  | restoreJob record =>
    cases answer with
    | job _ status =>
      cases hout
      exact h.restored hkeeps.1 hkeeps.2
    | error text =>
      cases hout
      refine h.cleared hkeeps.1 rfl rfl ?_ (fun hne => hne) fun _ =>
        List.forall_eraseIdx_append (List.forall_mem_singleton.mpr trivial)
      exact (hkeeps.2.erase hp rfl).imp_right (Or.imp_right AwaitsSome.append)
    | data _ => cases hout
    | record _ => cases hout
    | done => cases hout
  | _ => cases hok

/-- Without a record no update writes one. -/
theorem StoreInv.dead_of_none (h : StoreInv sha256 s) (hnone : s.readRecord sha256 = none) :
    UpdatesDead s := by
  cases h.phase with
  | gone hno _ => exact hno.2
  | tracked id ht =>
    obtain ⟨r, hr, -⟩ := ht.record
    exact absurd (hnone.symm.trans hr) (by simp)
  | unshown hu =>
    intro u hmem
    rw [hu.updates] at hmem
    exact absurd hmem List.not_mem_nil

/-- **A function that restores goes on**, and restores still. -/
theorem StoreInv.restores (h : StoreInv sha256 s) {raw : Option J.Text} {i : ℕ}
    {e e' : Pending D × Waiting D} (he : s.pending[i]? = some e) (hends : e.1.ends = false)
    (hread : { s with raw }.readRecord sha256 = s.readRecord sha256)
    (hok : EntryOk sha256 { s with raw, pending := s.pending.eraseIdx i ++ [e'] } e')
    (hrestoring : e'.1.restoring = true) :
    StoreInv sha256 { s with raw, pending := s.pending.eraseIdx i ++ [e'] } := by
  have hidle : Idle s → Idle { s with raw, pending := s.pending.eraseIdx i ++ [e'] } := fun hi =>
    (hi.erase he hends).imp_right (Or.imp_right AwaitsSome.append)
  exact h.same hread rfl rfl rfl (fun _ => id) (fun _ => hidle) (fun _ _ => id)
    (List.forall_eraseIdx_append (List.forall_mem_singleton.mpr hok)) fun _ _ =>
      .inl ⟨e', List.mem_append_right _ (List.mem_singleton_self _), hrestoring⟩

/-- What has ended is terminal. -/
theorem AnalysisController.endedState_isTerminal (status : DartString) :
    (endedState status).isTerminal = true := by
  unfold endedState
  split
  · rfl
  · split <;> rfl

/-- **A function goes on with the store's answer.** -/
theorem StoreInv.answered (h : StoreInv sha256 s) {i : ℕ} {p : Pending D} {answer : Reply D}
    {now : DartString} {out : Outcome D} (hp : s.pending[i]? = some (p, .answer answer))
    (hout : s.controller.resume (storeConfig fingerprint) now p answer = some out) :
    StoreInv sha256 ((s.erase i).perform sha256 out) := by
  have hok := h.entries _ (List.mem_of_getElem? hp)
  have hfollowed : ∀ {q : Pending D}, (∀ t : StoredSys J D, EntryOk sha256 t (q, .api)) →
      p.ends = false → p.restoring = false → StoreInv sha256
        { s with pending := s.pending.eraseIdx i ++ [(q, .api)] } := fun hq hends hrestoring =>
    h.resumed hp hends hrestoring (List.forall_mem_singleton.mpr hq) rfl rfl (fun _ => id)
      (.inl rfl)
  cases p with
  | cancelClarificationStored =>
    cases answer with
    | done =>
      cases hout
      exact h.returned hp rfl rfl rfl rfl (fun _ => id) (.inl rfl)
    | _ => exact hok.elim
  | snapshotStored job =>
    cases answer with
    | done =>
      cases hout
      exact hfollowed (fun _ => rfl) rfl rfl
    | _ => exact hok.elim
  | cancelStored job =>
    cases answer with
    | done =>
      cases hout
      exact hfollowed (fun _ => rfl) rfl rfl
    | _ => exact hok.elim
  | restoreCompleted record =>
    cases answer with
    | done =>
      cases hout
      exact hfollowed (fun _ => rfl) rfl rfl
    | _ => exact hok.elim
  | restoreCleared =>
    cases answer with
    | done =>
      cases hout
      exact h.returned hp rfl rfl rfl rfl (fun _ => id) (.inl rfl)
    | _ => exact hok.elim
  | restoreEnded record status =>
    cases answer with
    | done =>
      cases hout
      have hidle := AnalysisController.endedState_isTerminal status
      exact h.cleared hok.2 hok.1 rfl (.inr (.inl hidle))
        (fun _ => nofun) fun _ _ he => .inl (List.mem_of_mem_eraseIdx he)
    | _ => exact hok.elim
  | restoreSession fingerprint =>
    cases answer with
    | done =>
      cases hout
      refine h.restores hp rfl s.readRecord_afterRead (fun hnone => ?_) rfl
      exact ⟨s.readRecord_afterRead.trans hnone, h.dead_of_none hnone⟩
    | _ => exact hok.elim
  | restoreRead =>
    cases answer with
    | record record =>
      cases record with
      | none =>
        cases hout
        exact h.same rfl rfl rfl rfl (fun _ => id) (fun _ hidle => hidle.erase hp rfl)
          (fun _ _ => id) (fun _ he => .inl (List.mem_of_mem_eraseIdx he)) fun _ _ => .inr (hok rfl)
      | some record =>
        cases hout
        exact h.restores hp rfl rfl rfl rfl
    | _ => exact hok.elim
  | clarification job restored => cases restored <;> exact hok.elim
  | _ => exact hok.elim

/-- What is awaited still is when another function waits for something else. -/
theorem AwaitsSome.set {f : Pending D → Bool} {l : List (Pending D × Waiting D)} {i : ℕ}
    {e e' : Pending D × Waiting D} (h : AwaitsSome f l) (he : l[i]? = some e)
    (hf : f e.1 = f e'.1) : AwaitsSome f (l.set i e') := by
  obtain ⟨x, hx, hfx⟩ := h
  obtain ⟨j, hj⟩ := List.mem_iff_getElem?.mp hx
  by_cases hij : i = j
  · subst hij
    obtain rfl := Option.some.inj (he.symm.trans hj)
    have hlt : i < l.length := (List.getElem?_eq_some_iff.mp he).1
    exact ⟨e', List.mem_set hlt e', hf ▸ hfx⟩
  · exact ⟨x, List.mem_iff_getElem?.mpr ⟨j, (List.getElem?_set_ne hij).trans hj⟩, hfx⟩

/-- **`clearIfSessionMismatch` goes on.** -/
theorem StoreInv.mismatch (h : StoreInv sha256 s) {i : ℕ} {session : String}
    {current : Option AnalysisResumeRecord}
    (hp : s.pending[i]? = some (.restoreSession session, .mismatch current))
    (hkeeps : ∀ r ∈ current, r.sessionBindingFingerprint ≠ session → UpdatesDead s ∧ Idle s) :
    StoreInv sha256 { s.finishMismatch session current with
      pending := s.pending.set i (.restoreSession session, .answer .done) } := by
  have hentries : ∀ t : StoredSys J D,
      ∀ e ∈ s.pending.set i (.restoreSession session, .answer .done),
        e ∈ s.pending ∨ EntryOk sha256 t e := by
    intro t e he
    obtain he | rfl := List.mem_or_eq_of_mem_set he
    · exact .inl he
    · exact .inr trivial
  have hidle : Idle s → Idle { s with
      pending := s.pending.set i (.restoreSession session, .answer .done) } :=
    Or.imp_right (Or.imp_right fun ha => ha.set hp rfl)
  have hkept : StoreInv sha256 { s with
      pending := s.pending.set i (.restoreSession session, .answer .done) } :=
    h.same rfl rfl rfl rfl (fun _ => id) (fun _ => hidle) (fun _ _ => id) (hentries _)
      fun _ ha => .inl (ha.set hp rfl)
  cases current with
  | none => exact hkept
  | some r =>
    unfold StoredSys.finishMismatch
    dsimp only
    split
    · obtain ⟨hdead, hi⟩ := hkeeps r rfl ‹_›
      exact h.cleared hdead rfl rfl (hidle hi) (fun hne => hne) fun _ => hentries _
    · exact hkept

/-- The last one is still the last when another goes on. -/
theorem List.mem_getLast?_of_eraseIdx {α : Type} {l : List α} {i : ℕ} {x : α}
    (hi : i = 0 ∨ i + 1 < l.length) (hx : x ∈ (l.eraseIdx i).getLast?) : x ∈ l.getLast? := by
  obtain rfl | hlt := hi
  · cases l with
    | nil => exact hx
    | cons a l =>
      simp only [List.eraseIdx_zero, List.tail_cons, Option.mem_def] at hx
      simp [List.getLast?_cons, hx]
  · have hlength : (l.eraseIdx i).length = l.length - 1 :=
      List.length_eraseIdx_of_lt (by omega)
    rw [List.getLast?_eq_getElem?, hlength, List.getElem?_eraseIdx_of_ge (by omega)] at hx
    rw [List.getLast?_eq_getElem?]
    rwa [show l.length - 1 - 1 + 1 = l.length - 1 by omega] at hx

/-- **An update goes on.** -/
theorem StoreInv.update (h : StoreInv sha256 s) {i : ℕ} {u : StoreUpdate} {now : String}
    (hu : s.updates[i]? = some u)
    (hkeeps : UpdatesDead s ∨ i = 0 ∨ i + 1 < s.updates.length) :
    StoreInv sha256
      ({ s with updates := s.updates.eraseIdx i }.finishUpdate sha256 u now) := by
  have hmem := List.mem_of_getElem? hu
  cases h.phase with
  | gone hno hidle =>
    have hnone : u.current = none := hno.2 u hmem
    have hgone : NoRecord sha256 { s with updates := s.updates.eraseIdx i } :=
      ⟨hno.1, fun u' hu' => hno.2 u' (List.mem_of_mem_eraseIdx hu')⟩
    simp only [StoredSys.finishUpdate, hnone]
    exact ⟨h.entries_of (fun _ => hgone) (fun hne => hne) fun _ => .inl, .gone hgone hidle⟩
  | unshown hs =>
    rw [hs.updates] at hmem
    exact absurd hmem List.not_mem_nil
  | tracked id ht =>
    obtain ⟨hnonneg, hle, r, hr, hvalid, hid, hrle⟩ := ht.updates u hmem
    obtain ⟨kept, hkept, hkeptid, hkeptle, -⟩ := ht.record
    have hi : i = 0 ∨ i + 1 < s.updates.length := hkeeps.resolve_left fun hdead =>
      absurd ((hdead u hmem).symm.trans hr) (by simp)
    have hgone : ¬ NoRecord sha256 s := fun hno => absurd (hno.1.symm.trans hkept) (by simp)
    -- where no other update is left this one brings the last applied sequence
    have hlast : s.updates.eraseIdx i = [] →
        u.sequence = s.controller.state.lastAppliedSequence := by
      intro hnil
      have hlt : i < s.updates.length := (List.getElem?_eq_some_iff.mp hu).1
      have hlength := List.length_eraseIdx_of_lt hlt
      rw [hnil, List.length_nil] at hlength
      refine ht.last u ?_
      rw [List.getLast?_eq_getElem?, show s.updates.length - 1 = i by omega]
      exact hu
    have htracked : ∀ (raw : Option J.Text) (shown : AnalysisResumeRecord),
        (SharedPreferencesStore.read J sha256 raw).1 = some shown →
        dartString shown.analysisId = id →
        shown.lastAppliedSequence ≤ s.controller.state.lastAppliedSequence →
        (s.updates.eraseIdx i = [] →
          shown.lastAppliedSequence = s.controller.state.lastAppliedSequence) →
        StoreInv sha256 { s with raw, updates := s.updates.eraseIdx i } :=
      fun raw shown hread hshown hshownle hshownlast =>
        ⟨h.entries_of (fun hno => absurd hno hgone) (fun hne => hne) fun _ => .inl, .tracked id
          { active := ht.active
            running := ht.running
            record := ⟨shown, hread, hshown, hshownle, hshownlast⟩
            updates := fun u' hu' => ht.updates u' (List.mem_of_mem_eraseIdx hu')
            last := fun u' hu' => ht.last u' (List.mem_getLast?_of_eraseIdx hi hu') }⟩
    simp only [StoredSys.finishUpdate, hr]
    split
    · exact htracked _ kept hkept hkeptid hkeptle fun hnil =>
        absurd (hlast hnil) (by omega)
    · have hwritten : (r.advance u.sequence (some u.eventId) now).Valid := hvalid.advance hnonneg
      exact htracked _ _ (congrArg Prod.fst (SharedPreferencesStore.read_encode hwritten)) hid hle
        hlast

/-- **An update begins** without a record, and the analysis ends. -/
theorem StoreInv.updateEnded (h : StoreInv sha256 s) {c : AnalysisController D}
    (hno : NoRecord sha256 s) (hterminal : c.state.statusState.isTerminal = true)
    (hactive : s.controller.state.activeAnalysisId ≠ none → c.state.activeAnalysisId ≠ none)
    (u : StoreUpdate) (hu : u.current = none) (new : List (Pending D × Waiting D))
    (hnew : ∀ e ∈ new, ∀ t : StoredSys J D, EntryOk sha256 t e) :
    StoreInv sha256
      (⟨c, s.pending ++ new, s.updates ++ [u], none⟩ : StoredSys J D) := by
  have hgone : NoRecord sha256
      (⟨c, s.pending ++ new, s.updates ++ [u], none⟩ : StoredSys J D) := by
    refine ⟨rfl, fun u' hu' => ?_⟩
    obtain hu' | hu' := List.mem_append.mp hu'
    · exact hno.2 u' hu'
    · obtain rfl := List.mem_singleton.mp hu'
      exact hu
  refine ⟨h.entries_of (fun _ => hgone) hactive fun e he => ?_, .gone hgone (.inr (.inl hterminal))⟩
  obtain he | he := List.mem_append.mp he
  · exact .inl he
  · exact .inr (hnew e he _)

/-- What an event starts: a last one clears the record. -/
theorem AnalysisController.switchEvent_cases {state : AnalysisState D}
    {ev : AnalysisDomainEventModel D} {status : AnalysisStatusState} {warning : Option DartString}
    {calls : List (Started D)} (hrunning : state.statusState.isTerminal = false)
    (h : switchEvent (storeConfig fingerprint) state ev = (status, warning, calls)) :
    (status.isTerminal = false ∧ (calls = [] ∨ ∃ id, calls = [.await (.clarification id none)])) ∨
      (status.isTerminal = true ∧ (calls = [.call .markTerminal] ∨
        ∃ id, calls = [.call .markTerminal, .await (.completedResult id)])) := by
  unfold switchEvent at h
  split at h <;> cases h
  all_goals first
    | exact .inl ⟨rfl, .inl rfl⟩
    | exact .inl ⟨rfl, .inr ⟨_, rfl⟩⟩
    | exact .inr ⟨rfl, .inl rfl⟩
    | exact .inr ⟨rfl, .inr ⟨_, rfl⟩⟩
    | exact .inl ⟨hrunning, .inl rfl⟩

/-- **An update begins** with a later sequence. -/
theorem StoreInv.updateBegun (h : StoreInv sha256 s) {c : AnalysisController D} {sequence : ℤ}
    (hlater : s.controller.state.lastAppliedSequence < sequence)
    (hactive : c.state.activeAnalysisId = s.controller.state.activeAnalysisId)
    (hlast : c.state.lastAppliedSequence = sequence)
    (hrunning : c.state.statusState.isTerminal = false) (hmay : MayRun sha256 s)
    (hsub : s.controller.sseSubscription ≠ none) (eventId : String) :
    StoreInv sha256
      { s.afterRead sha256 with
        controller := c
        updates := s.updates ++ [{ current := s.readRecord sha256, sequence, eventId }] } := by
  have hread : (s.afterRead sha256).readRecord sha256 = s.readRecord sha256 :=
    s.readRecord_afterRead
  have hgone : NoRecord sha256 s → NoRecord sha256
      { s.afterRead sha256 with
        controller := c
        updates := s.updates ++ [{ current := s.readRecord sha256, sequence, eventId }] } := by
    intro hno
    refine ⟨hread.trans hno.1, fun u hu => ?_⟩
    obtain hu | hu := List.mem_append.mp hu
    · exact hno.2 u hu
    · obtain rfl := List.mem_singleton.mp hu
      exact hno.1
  refine ⟨h.entries_of hgone (fun hne => hactive ▸ hne) fun _ => .inl, ?_⟩
  cases h.phase with
  | gone hno _ =>
    refine .gone (hgone hno) ?_
    obtain hr | hnone | hends := hmay
    · exact absurd hno.1 hr
    · exact .inl (hactive.trans hnone)
    · exact .inr (.inr hends)
  | unshown hs => exact absurd hs.subscription hsub
  | tracked id ht =>
    obtain ⟨r, hr, hid, hle, -⟩ := ht.record
    have hvalid : r.Valid := SharedPreferencesStore.valid_of_read hr
    have hpos : 0 ≤ sequence := by
      have := hvalid.sequence
      omega
    refine .tracked id
      { active := hactive.trans ht.active
        running := hrunning
        record := ⟨r, hread.trans hr, hid, by simp only [hlast]; omega, fun hnil => by simp at hnil⟩
        updates := fun u hu => ?_
        last := fun u hu => ?_ }
    · simp only [hlast]
      obtain hu | hu := List.mem_append.mp hu
      · obtain ⟨hu, hule, r', hr', hvalid', hid', hle'⟩ := ht.updates u hu
        exact ⟨hu, by omega, r', hr', hvalid', hid', by omega⟩
      · obtain rfl := List.mem_singleton.mp hu
        exact ⟨hpos, Int.le_refl _, r, hr, hvalid, hid, by omega⟩
    · obtain rfl : _ = u := by simpa using hu
      exact hlast.symm

/-- **An event.** -/
theorem StoreInv.event (h : StoreInv sha256 s) {sub : EventSubscription D}
    {ev : AnalysisDomainEventModel D} (hsub : s.controller.sseSubscription ≠ none)
    (hkeeps : EventKeepsStore sha256 s (storeConfig fingerprint) ev) :
    StoreInv sha256 (s.perform sha256
      ((s.bare.onStream sub).handleDomainEvent (storeConfig fingerprint) ev)) := by
  have hsame : ∀ new : List (Pending D × Waiting D),
      (∀ e ∈ new, ∀ t : StoredSys J D, EntryOk sha256 t e) →
        StoreInv sha256 { s with controller := s.bare.onStream sub, pending := s.pending ++ new } :=
    fun new hnew => h.goes_on (fun _ => id) id id hnew rfl rfl (fun _ hnone => absurd hnone hsub)
      (.inl rfl)
  have hquiet : StoreInv sha256 (s.perform sha256 (s.bare.onStream sub, [])) := by
    simpa [StoredSys.perform] using hsame [] fun _ he => absurd he List.not_mem_nil
  have hstate : (s.bare.onStream sub).state = s.controller.state := rfl
  unfold AnalysisController.handleDomainEvent
  rw [hstate]
  by_cases hadmits : AnalysisController.admits s.controller.state ev = true
  · rw [if_pos hadmits]
    cases hgap : AnalysisController.hasGap s.controller.state ev with
    | true =>
      rw [if_pos rfl]
      unfold AnalysisController.refreshActiveSnapshot
      split
      · exact hquiet
      · exact hsame _ (List.forall_mem_singleton.mpr fun _ => rfl)
    | false =>
      rw [if_neg (by simp)]
      have hkept := hkeeps hadmits hgap
      have hrunning : s.controller.state.statusState.isTerminal = false := by
        cases hterminal : s.controller.state.statusState.isTerminal with
        | false => rfl
        | true => simp [AnalysisController.admits, hterminal] at hadmits
      have hlater : s.controller.state.lastAppliedSequence < ev.sequence := by
        simp only [AnalysisController.admits, Bool.and_eq_true, decide_eq_true_eq] at hadmits
        exact hadmits.2
      generalize hswitch : AnalysisController.switchEvent (storeConfig fingerprint)
        s.controller.state ev = out at hkept ⊢
      obtain ⟨status, warning, calls⟩ := out
      let c := (s.bare.onStream sub).set
        { statusState := some status
          lastAppliedSequence := some ev.sequence
          lastEventId := some (AnalysisController.sequenceText ev.sequence)
          warningMessage := warning }
      obtain ⟨hstatus, hcalls⟩ | ⟨hstatus, hcalls⟩ :=
        AnalysisController.switchEvent_cases hrunning hswitch
      · rw [if_neg (by simp [hstatus])] at hkept
        have hbegun := h.updateBegun (c := c) hlater rfl rfl hstatus hkept hsub
        obtain rfl | ⟨id, rfl⟩ := hcalls
        · exact hbegun _
        · exact (hbegun _).goes_on (fun _ he => he) (fun ha => ha) (fun ha => ha)
            (List.forall_mem_singleton.mpr fun _ => rfl) rfl rfl (fun _ hnone => hnone) (.inl rfl)
      · rw [if_pos hstatus] at hkept
        have hended := h.updateEnded (c := c) hkept hstatus (fun hne => hne)
          ⟨s.readRecord sha256, ev.sequence, String.ofList (dumpInt ev.sequence)⟩ hkept.1
        obtain rfl | ⟨id, rfl⟩ := hcalls
        · have hnone := hended [] fun _ he => absurd he List.not_mem_nil
          rw [List.append_nil] at hnone
          exact hnone
        · exact hended _ (List.forall_mem_singleton.mpr fun _ => rfl)
  · rw [if_neg hadmits]
    exact hquiet

/-- **A step** that meets the condition keeps the invariant. -/
theorem StoreInv.step (h : StoreInv sha256 s) {act : StoredAct D}
    (hkeeps : KeepsStore sha256 (storeConfig fingerprint) s act)
    (hstep : s.step sha256 (storeConfig fingerprint) act = some s') : StoreInv sha256 s' := by
  obtain ⟨-, hkeeps⟩ := hkeeps
  have hstarts : ∀ (c : AnalysisController D) (p : Pending D), p.storeCall = none →
      (∀ t : StoredSys J D, EntryOk sha256 t (p, .api)) →
      c.state.activeAnalysisId = s.controller.state.activeAnalysisId →
      c.state.lastAppliedSequence = s.controller.state.lastAppliedSequence →
      c.sseSubscription = s.controller.sseSubscription →
      (c.state.statusState = s.controller.state.statusState ∨
        c.state.statusState.isTerminal = false ∧ p.ends = true) →
      StoreInv sha256 (s.perform sha256 (c, [.await p])) := by
    intro c p hcall hok hactive hlast hsub hstatus
    have hperform : s.perform sha256 (c, [.await p]) =
        { s with controller := c, pending := s.pending ++ [(p, .api)] } := by
      simp [StoredSys.perform, StoredSys.begin, hcall]
    rw [hperform]
    exact h.goes_on (fun _ => id) id id (List.forall_mem_singleton.mpr hok) hactive hlast
      (fun _ => hsub.trans) (hstatus.imp_right fun hs =>
        ⟨hs.1, .inr ⟨_, List.mem_singleton_self _, hs.2⟩⟩)
  -- what the stream does, other than an event
  have hstreams : ∀ (c : AnalysisController D) (sub : EventSubscription D),
      s.bare.openSubscription = some sub →
      c.state.activeAnalysisId = s.controller.state.activeAnalysisId →
      c.state.lastAppliedSequence = s.controller.state.lastAppliedSequence →
      (c.state.statusState = s.controller.state.statusState ∨
        c.state.statusState.isTerminal = false ∧ MayRun sha256 s) →
      StoreInv sha256 { s with controller := c } := by
    intro c sub hsub hactive hlast hstatus
    have hsome := (ControllerSys.openSubscription_eq_some.mp hsub).1
    have hnil : ∀ e ∈ ([] : List (Pending D × Waiting D)), ∀ t : StoredSys J D,
        EntryOk sha256 t e := fun _ he => absurd he List.not_mem_nil
    simpa using h.goes_on (fun _ => id) id id hnil hactive hlast
      (fun _ hnone => absurd (hnone.symm.trans hsome) (by simp))
      (hstatus.imp_right fun hs => ⟨hs.1, .inl hs.2⟩)
  cases act with
  | controller act =>
    cases act with
    | submitAnalysis prompt key documentIds =>
      cases hstep
      unfold AnalysisController.submitAnalysis
      split
      · exact h
      · exact hstarts _ _ rfl (fun _ => rfl) rfl rfl rfl (.inr ⟨rfl, rfl⟩)
    | restorePendingAnalysis =>
      cases hstep
      have hidle : Idle s → Idle (s.perform sha256
          (s.controller.restorePendingAnalysis (storeConfig fingerprint))) :=
        Or.imp_right (Or.imp_right AwaitsSome.append)
      refine h.same s.readRecord_afterRead rfl rfl rfl (fun _ => id) (fun _ => hidle)
        (fun _ _ => id) (fun e he => ?_) fun _ ha => .inl ha.append
      obtain he | he := List.mem_append.mp he
      · exact .inl he
      · obtain rfl := List.mem_singleton.mp he
        exact .inr trivial
    | fetchClarificationDetails id =>
      cases hstep
      exact hstarts _ _ rfl (fun _ => rfl) rfl rfl rfl (.inl rfl)
    | submitClarification id key payload =>
      cases hstep
      unfold AnalysisController.submitClarification
      split
      · exact h
      · split
        · exact h
        · exact hstarts _ _ rfl (fun _ => rfl) rfl rfl rfl (.inl rfl)
    | cancelClarification id key =>
      cases hstep
      unfold AnalysisController.cancelClarification
      split
      · exact h
      · exact hstarts _ _ rfl (fun _ => rfl) rfl rfl rfl (.inl rfl)
    | refreshActiveSnapshot =>
      cases hstep
      unfold AnalysisController.refreshActiveSnapshot
      split
      · exact h
      · exact hstarts _ _ rfl (fun _ => rfl) rfl rfl rfl (.inl rfl)
    | cancelCurrentAnalysis =>
      cases hstep
      unfold AnalysisController.cancelCurrentAnalysis
      split
      · exact h
      · refine h.cleared hkeeps rfl rfl (.inr (.inl rfl)) (fun hne => hne) fun _ e he => ?_
        obtain he | he := List.mem_append.mp he
        · exact .inl he
        · obtain rfl := List.mem_singleton.mp he
          exact .inr trivial
    | reply i answer now =>
      simp only [StoredSys.step] at hstep
      split at hstep
      · rename_i p hp
        obtain ⟨out, hout, rfl⟩ := Option.map_eq_some_iff.mp hstep
        exact h.reply hp (hkeeps _ hp) hout
      · cases hstep
    | connect events =>
      obtain ⟨b, hb, rfl⟩ := Option.map_eq_some_iff.mp hstep
      obtain ⟨sub, hsub, -, rfl⟩ := ControllerSys.step_connect hb
      exact hstreams _ sub hsub rfl rfl (.inl rfl)
    | event =>
      obtain ⟨sub, hsub, hstep⟩ := Option.bind_eq_some_iff.mp hstep
      have hsome := (ControllerSys.openSubscription_eq_some.mp hsub).1
      split at hstep
      · cases hstep
        refine h.event (fun hnone => absurd (hnone.symm.trans hsome) (by simp)) ?_
        refine hkeeps sub hsub _ ?_
        simp [*]
      · cases hstep
    | streamError =>
      obtain ⟨b, hb, rfl⟩ := Option.map_eq_some_iff.mp hstep
      obtain ⟨sub, hsub, rfl⟩ := ControllerSys.step_streamError hb
      exact hstreams _ sub hsub rfl rfl (.inr ⟨rfl, hkeeps⟩)
    | streamDone =>
      obtain ⟨b, hb, rfl⟩ := Option.map_eq_some_iff.mp hstep
      obtain ⟨sub, hsub, -, rfl⟩ := ControllerSys.step_streamDone hb
      exact hstreams _ sub hsub rfl rfl (.inl rfl)
  | finish i now =>
    simp only [StoredSys.step] at hstep
    split at hstep
    · rename_i p answer hp
      obtain ⟨out, hout, rfl⟩ := Option.map_eq_some_iff.mp hstep
      exact h.answered hp hout
    · rename_i session current hp
      cases hstep
      refine h.mismatch hp fun r hr => ?_
      obtain rfl : current = some r := hr
      simpa only [hp] using hkeeps
    · cases hstep
  | update i now =>
    simp only [StoredSys.step] at hstep
    split at hstep
    · cases hstep
      exact h.update ‹_› hkeeps
    · cases hstep

/-- **The first step** shows that the controller is constructed with nothing to do. -/
theorem StoreInv.first {raw : Option J.Text} {act : StoredAct D}
    (hkeeps : KeepsStore sha256 (storeConfig fingerprint) { raw } act)
    (hstep : StoredSys.step sha256 (storeConfig fingerprint) { raw } act = some s') :
    StoreInv sha256 s' := by
  obtain hnone | hactive | hrestoring | hact := hkeeps.1
  · have hstart : StoreInv sha256 ({ raw } : StoredSys J D) :=
      ⟨fun _ he => absurd he List.not_mem_nil,
        .gone ⟨hnone, fun _ hu => absurd hu List.not_mem_nil⟩ (.inl rfl)⟩
    exact hstart.step hkeeps hstep
  · exact absurd rfl hactive
  · obtain ⟨e, he, -⟩ := hrestoring
    exact absurd he List.not_mem_nil
  · unfold StoredAct.restores at hact
    split at hact
    · cases hstep
      refine ⟨List.forall_mem_singleton.mpr trivial, .unshown ⟨rfl, rfl, rfl, ?_⟩⟩
      exact ⟨_, List.mem_singleton_self _, rfl⟩
    · cases hact

/-- An accepted submission fails. -/
theorem StoredSys.not_stepMirrors {act : StoredAct D} {id : DartString}
    (haccepted : AcceptedAs s act id)
    (hstep : s.step sha256 (storeConfig fingerprint) act = some s') :
    ¬ StepMirrors sha256 s act s' := by
  intro hmirrors
  have hfollows := (hmirrors.1 id haccepted).1
  obtain ⟨i, prompt, key, documentIds, status, now, rfl, hp⟩ := haccepted
  simp only [step, hp] at hstep
  cases hstep
  exact hfollows rfl

/-- A step that meets the condition leaves the store in step. -/
theorem StoreInv.stepMirrors (h : StoreInv sha256 s') {act : StoredAct D}
    (hkeeps : KeepsStore sha256 (storeConfig fingerprint) s act) : StepMirrors sha256 s act s' := by
  refine ⟨fun id haccepted => ?_, h.mirrors⟩
  obtain ⟨i, prompt, key, documentIds, status, now, rfl, hp⟩ := haccepted
  exact (hkeeps.2 _ hp).elim

end

/-- **The resume store** mirrors the controller in every run whose steps meet the condition; and no
step after which a submission is accepted leaves the two in step. A record that is behind lets a
restart show an older state; one that is left lets it show an analysis that has ended. -/
theorem resumeStore_mirrors (J : PrefsText) (sha256 : List ℕ → String) (fingerprint : String)
    (raw : Option J.Text) (acts : List (StoredAct D))
    (hkeeps : AlongRun (StoredSys.step sha256 (storeConfig fingerprint))
      (fun s act _ => KeepsStore sha256 (storeConfig fingerprint) s act) { raw } acts) :
    AlongRun (StoredSys.step sha256 (storeConfig fingerprint)) (StepMirrors sha256)
        ({ raw } : StoredSys J D) acts ∧
      ∀ (s s' : StoredSys J D) (act : StoredAct D) (id : DartString), AcceptedAs s act id →
        s.step sha256 (storeConfig fingerprint) act = some s' → ¬ StepMirrors sha256 s act s' := by
  refine ⟨?_, fun s s' act id => StoredSys.not_stepMirrors⟩
  cases acts with
  | nil => trivial
  | cons act acts =>
    intro s hs
    obtain ⟨hkept, hrest⟩ := hkeeps s hs
    have hfirst := StoreInv.first hkept hs
    refine ⟨hfirst.stepMirrors hkept, ?_⟩
    exact AlongRun.of_invariant (fun s act s' hi hstep hkept =>
      ⟨(hi.step hkept hstep).stepMirrors hkept, hi.step hkept hstep⟩) hrest hfirst

/-! ### A restored record, and a finished one -/

/-- The digests of the texts of a record and of the record after an event. -/
def resumeSha256 (bytes : List ℕ) : String :=
  if bytes = utf8Bytes "resume_v1:a1b2:6:ACTIVE:c3d4".toList then
    "ff0d7011cfd6ef942c314fee8b29246e0933bd99072991b25eaab3b49c2e38d4"
  else sampleSha256 bytes

/-- The record of five events is stored; the analysis is restored, and an event of it arrives. -/
def restoredActs (eventType : String) : List (StoredAct .integral) :=
  [.controller .restorePendingAnalysis, .finish 0 [], .finish 0 [], .finish 0 [],
    .controller (.reply 0 (.job (dartString "a1b2") (dartString "EXECUTING")) []),
    .controller (.connect [streamEvent [] 6 eventType]), .controller .event,
    .update 0 "2026-01-01T00:00:01.000Z"]

/-- The text that is stored. -/
def restoredText : Option sampleTexts.Text := some ((sampleRecord 5).toJson resumeSha256)

theorem resumeStore_mirrors_restored :
    AlongRun (StoredSys.step resumeSha256 (storeConfig "c3d4")) (StepMirrors resumeSha256)
        { raw := restoredText } (restoredActs "analysis.tool_started") ∧
      (runSteps (StoredSys.step resumeSha256 (storeConfig "c3d4")) { raw := restoredText }
        (restoredActs "analysis.tool_started")).map (fun s =>
          (s.pending.length, s.updates.length,
            (s.readRecord resumeSha256).map (·.lastAppliedSequence))) = some (0, 0, some 6) := by
  refine ⟨?_, by decide +kernel⟩
  refine (resumeStore_mirrors sampleTexts resumeSha256 "c3d4" restoredText _ ?_).1
  decide +kernel

/-- An accepted submission fails; and the update of a last event writes the record again. -/
theorem resumeStore_not_mirrors :
    (¬ ∀ (J : PrefsText) (sha256 : List ℕ → String) (fingerprint : String) (raw : Option J.Text)
      (acts : List (StoredAct .integral)),
      AlongRun (StoredSys.step sha256 (storeConfig fingerprint)) (StepMirrors sha256)
        { raw } acts) ∧
    ∃ s, runSteps (StoredSys.step resumeSha256 (storeConfig "c3d4")) { raw := restoredText }
        (restoredActs "analysis.completed" ++ [.controller (.reply 0 (.data []) [])]) = some s ∧
      StoreSettled s ∧ s.controller.state.statusState = .completed ∧
      ¬ StoreMirrors resumeSha256 s := by
  constructor
  · intro hclaim
    have hrun := hclaim sampleTexts resumeSha256 "c3d4" none
      [.controller (.submitAnalysis [] [] none),
        .controller (.reply 0 (.job (dartString "a1b2") (dartString "RECEIVED")) [])]
    obtain ⟨-, hrun⟩ := hrun _ rfl
    obtain ⟨hmirrors, -⟩ := hrun _ rfl
    exact absurd hmirrors
      (StoredSys.not_stepMirrors ⟨0, [], [], none, dartString "RECEIVED", [], rfl, rfl⟩ rfl)
  · have hrun : (runSteps (StoredSys.step resumeSha256 (storeConfig "c3d4"))
        { raw := restoredText }
        (restoredActs "analysis.completed" ++ [.controller (.reply 0 (.data []) [])])).map
          (fun s => (s.pending.length, s.updates.length, s.controller.state.statusState,
            (s.readRecord resumeSha256).isSome)) = some (0, 0, .completed, true) := by
      decide +kernel
    obtain ⟨s, hs, heq⟩ := Option.map_eq_some_iff.mp hrun
    simp only [Prod.mk.injEq, List.length_eq_zero_iff] at heq
    obtain ⟨hpending, hupdates, hstatus, hrecord⟩ := heq
    refine ⟨s, hs, ⟨hpending, hupdates⟩, hstatus, fun hmirrors => ?_⟩
    obtain ⟨r, hr⟩ := Option.isSome_iff_exists.mp hrecord
    have hrunning := (hmirrors.1 r hr).2.1
    rw [hstatus] at hrunning
    cases hrunning

end FinanceIntelligence
