import FinanceIntelligence.ClientState

/-!
# The queue of candidates under review

`FactReviewController` (presentation/state/fact_review_controller.dart) shows the candidates that
wait for a decision, and sends the decisions of a reviewer. A decision takes a number of its own
from the same counter as the requests for the queue. When its answer comes and no other request was
made since, the queue is fetched again, and only then the caller is told how the decision ended.

* `decision_reported` — the caller is told **what the server answered**, of every decision, however
  it is interleaved with others.
* `review_settles` — at rest the answer to the latest request for the queue is shown.
* `review_upToDate` — when the queue that is shown at rest was **requested after a decision**.
-/

namespace FinanceIntelligence

/-! ## Decisions -/

/-- A decision of the reviewer, with texts `S`. -/
inductive ReviewDecision (S : Type) where
  | approveCandidate (candidateId : S) (notes targetReportingBasis : Option S)
  | rejectCandidate (candidateId reason : S)
  | approveCandidateRevision (candidateId expectedExistingFactId : S)
      (notes targetReportingBasis : Option S)
deriving DecidableEq

/-- How far a decision is; it ends with `E` thrown or with nothing. -/
inductive DecisionStatus (E : Type) where
  /-- the server has not answered -/
  | awaiting
  /-- the queue is fetched again, by the request with a number -/
  | reloading (load : ℕ) (outcome : Except E Unit)
  /-- the caller has been told -/
  | done (outcome : Except E Unit)

/-- The server has not answered. -/
def DecisionStatus.isAwaiting {E : Type} : DecisionStatus E → Bool
  | awaiting => true
  | _ => false

theorem DecisionStatus.isAwaiting_iff {E : Type} {x : DecisionStatus E} :
    x.isAwaiting = true ↔ x = .awaiting := by
  cases x <;> simp [isAwaiting]

/-- What the caller is told, or will be told. -/
def DecisionStatus.outcome {E : Type} : DecisionStatus E → Option (Except E Unit)
  | awaiting => none
  | reloading _ outcome => some outcome
  | done outcome => some outcome

/-- A decision that has been sent. -/
structure SentDecision (S E : Type) where
  /-- `currentToken` -/
  token : ℕ
  /-- what is decided -/
  decision : ReviewDecision S
  /-- how far it is -/
  status : DecisionStatus E

namespace SentDecision

variable {S E : Type}

/-- The decision with a number goes on. -/
def goOn (token : ℕ) (status : DecisionStatus E) (r : SentDecision S E) : SentDecision S E :=
  if r.token = token then { r with status := status } else r

/-- The queue has been fetched. -/
def reloaded (load : ℕ) (r : SentDecision S E) : SentDecision S E :=
  match r.status with
  | .reloading n outcome => if n = load then { r with status := .done outcome } else r
  | _ => r

@[simp] theorem goOn_token (token : ℕ) (status : DecisionStatus E) (r : SentDecision S E) :
    (r.goOn token status).token = r.token := by
  unfold goOn
  split <;> rfl

@[simp] theorem goOn_decision (token : ℕ) (status : DecisionStatus E) (r : SentDecision S E) :
    (r.goOn token status).decision = r.decision := by
  unfold goOn
  split <;> rfl

@[simp] theorem reloaded_token (load : ℕ) (r : SentDecision S E) :
    (r.reloaded load).token = r.token := by
  unfold reloaded
  split
  next => split <;> rfl
  next => rfl

@[simp] theorem reloaded_decision (load : ℕ) (r : SentDecision S E) :
    (r.reloaded load).decision = r.decision := by
  unfold reloaded
  split
  next => split <;> rfl
  next => rfl

/-- Fetching the queue does not change what a caller will be told. -/
@[simp] theorem reloaded_outcome (load : ℕ) (r : SentDecision S E) :
    (r.reloaded load).status.outcome = r.status.outcome := by
  unfold reloaded
  split
  next n outcome hstatus =>
    split
    next => rw [hstatus]; rfl
    next => rfl
  next => rfl

theorem goOn_awaiting {token : ℕ} {status : DecisionStatus E} {r : SentDecision S E}
    (hstatus : status.isAwaiting = false) (h : (r.goOn token status).status = .awaiting) :
    r.token ≠ token ∧ r.status = .awaiting := by
  unfold goOn at h
  split at h
  next =>
    rw [show status = .awaiting from h] at hstatus
    cases hstatus
  next hne => exact ⟨hne, h⟩

theorem reloaded_awaiting {load : ℕ} {r : SentDecision S E} :
    (r.reloaded load).status = .awaiting ↔ r.status = .awaiting := by
  unfold reloaded
  split
  next n outcome hstatus =>
    split
    next => simp [hstatus]
    next => rfl
  next => rfl

theorem reloaded_reloading {load n : ℕ} {o : Except E Unit} {r : SentDecision S E}
    (h : (r.reloaded load).status = .reloading n o) : r.status = .reloading n o ∧ n ≠ load := by
  unfold reloaded at h
  split at h
  next n' outcome hstatus =>
    split at h
    next => cases h
    next hne =>
      rw [hstatus] at h ⊢
      obtain ⟨rfl, -⟩ := DecisionStatus.reloading.inj h
      exact ⟨h, hne⟩
  next hnot => exact absurd h (hnot n o)

end SentDecision

/-! ## The controller -/

/-- A request of the controller. -/
inductive ReviewRequest (S : Type) where
  /-- `getCandidateQueue` -/
  | load
  /-- a decision -/
  | decide (d : ReviewDecision S)

/-- What the controller shows and the decisions that it has sent, with rows `ρ`. -/
structure ReviewQueue (ρ S δ : Type) where
  /-- the state and its requests -/
  queue : GuardedState (UiState (List ρ) (AppException S δ)) := { shown := .initial }
  decisions : List (SentDecision S (AppException S δ)) := []

/-- What happens. -/
inductive ReviewEvent (ρ S δ : Type) where
  /-- `loadCandidates` is called -/
  | load
  /-- a decision is made -/
  | decide (d : ReviewDecision S)
  /-- a request for the queue is answered -/
  | loaded (token : ℕ) (answer : Except (Thrown S δ) (List ρ))
  /-- a decision is answered -/
  | decided (token : ℕ) (answer : Except (Thrown S δ) Unit)
  /-- the controller is disposed -/
  | dispose

variable {ρ S δ : Type}

/-- `loadCandidates`, and what a decision does to the state: nothing until the queue is fetched
again. -/
def factReviewController (code requestId : S) :
    RequestGuard (ReviewRequest S) (Option (Except (Thrown S δ) (List ρ)))
      (UiState (List ρ) (AppException S δ)) where
  begin request token s :=
    match request with
    | .load => .loading token s.data
    | .decide _ => s
  settle token answer s :=
    match answer with
    | none => s
    | some (.ok items) => .ofList items token
    | some (.error e) => .failure (e.toAppException code requestId) token none

/-- How a decision ends: what the server refused is thrown. -/
def decisionOutcome (code requestId : S) (answer : Except (Thrown S δ) Unit) :
    Except (AppException S δ) Unit :=
  match answer with
  | .ok () => .ok ()
  | .error e => .error (e.toAppException code requestId)

namespace ReviewQueue

/-- A decision with this number has not been answered. -/
def awaits (s : ReviewQueue ρ S δ) (token : ℕ) : Bool :=
  s.decisions.any fun r => r.token == token && r.status.isAwaiting

section

variable {s : ReviewQueue ρ S δ} {queue : GuardedState (UiState (List ρ) (AppException S δ))}
  {token : ℕ}

theorem awaits_iff :
    s.awaits token = true ↔ ∃ r ∈ s.decisions, r.token = token ∧ r.status = .awaiting := by
  simp [awaits, DecisionStatus.isAwaiting_iff]

theorem awaits_map {f : SentDecision S (AppException S δ) → SentDecision S (AppException S δ)}
    (hf : ∀ r, (f r).token = r.token)
    (hstatus : ∀ r, r.token = token → ((f r).status = .awaiting ↔ r.status = .awaiting)) :
    ({ queue, decisions := s.decisions.map f } : ReviewQueue ρ S δ).awaits token =
      s.awaits token := by
  rw [Bool.eq_iff_iff, awaits_iff, awaits_iff]
  constructor
  · rintro ⟨x, hx, htoken, hw⟩
    obtain ⟨r, hr, rfl⟩ := List.mem_map.mp hx
    rw [hf] at htoken
    exact ⟨r, hr, htoken, (hstatus r htoken).mp hw⟩
  · rintro ⟨r, hr, htoken, hw⟩
    exact ⟨_, List.mem_map_of_mem hr, (hf r).trans htoken, (hstatus r htoken).mpr hw⟩

theorem awaits_reloaded {load : ℕ} :
    ({ queue, decisions := s.decisions.map (·.reloaded load) } : ReviewQueue ρ S δ).awaits token =
      s.awaits token :=
  awaits_map (SentDecision.reloaded_token load) fun _ _ => SentDecision.reloaded_awaiting

theorem awaits_goOn {n : ℕ} (hne : token ≠ n) {status : DecisionStatus (AppException S δ)} :
    ({ queue, decisions := s.decisions.map (·.goOn n status) } : ReviewQueue ρ S δ).awaits token =
      s.awaits token :=
  awaits_map (SentDecision.goOn_token n status) fun r htoken => by
    rw [SentDecision.goOn, if_neg (htoken ▸ hne)]

end

variable (code requestId : S)

/-- One event. -/
def step (s : ReviewQueue ρ S δ) : ReviewEvent ρ S δ → Option (ReviewQueue ρ S δ)
  | .load =>
    ((factReviewController code requestId).step s.queue (.start .load)).map fun queue =>
      { s with queue := queue }
  | .decide d =>
    ((factReviewController code requestId).step s.queue (.start (.decide d))).map fun queue =>
      { queue := queue, decisions := s.decisions ++ [⟨queue.current, d, .awaiting⟩] }
  | .loaded token answer =>
    if s.awaits token then none
    else
      ((factReviewController code requestId).step s.queue (.answer token (some answer))).map
        fun queue => { queue := queue, decisions := s.decisions.map (·.reloaded token) }
  | .decided token answer =>
    if s.awaits token then
      ((factReviewController code requestId).step s.queue (.answer token none)).bind fun queue =>
        -- `mounted && _generationToken == currentToken`
        if queue.mounted ∧ token = queue.current then
          ((factReviewController code requestId).step queue (.start .load)).map fun queue' =>
            { queue := queue'
              decisions := s.decisions.map
                (·.goOn token (.reloading queue'.current (decisionOutcome code requestId answer))) }
        else
          some {
            queue := queue
            decisions := s.decisions.map
              (·.goOn token (.done (decisionOutcome code requestId answer))) }
    else none
  | .dispose => some { s with queue := { s.queue with mounted := false } }

variable {code requestId} {s s' : ReviewQueue ρ S δ}

theorem step_load (h : s.step code requestId .load = some s') :
    s.queue.mounted = true ∧ s' = { s with queue := { s.queue with
      current := s.queue.current + 1
      inFlight := s.queue.inFlight ++ [s.queue.current + 1]
      shown := .loading (s.queue.current + 1) s.queue.shown.data } } := by
  simp only [step, RequestGuard.step] at h
  split at h
  next hmounted => exact ⟨hmounted, (Option.some.inj h).symm⟩
  next => cases h

theorem step_decide {d : ReviewDecision S} (h : s.step code requestId (.decide d) = some s') :
    s.queue.mounted = true ∧ s' = {
      queue := { s.queue with
        current := s.queue.current + 1
        inFlight := s.queue.inFlight ++ [s.queue.current + 1] }
      decisions := s.decisions ++ [⟨s.queue.current + 1, d, .awaiting⟩] } := by
  simp only [step, RequestGuard.step] at h
  split at h
  next hmounted => exact ⟨hmounted, (Option.some.inj h).symm⟩
  next => cases h

theorem step_loaded {token : ℕ} {answer : Except (Thrown S δ) (List ρ)}
    (h : s.step code requestId (.loaded token answer) = some s') :
    s.awaits token = false ∧ token ∈ s.queue.inFlight ∧ s' = {
      queue := { s.queue with
        inFlight := s.queue.inFlight.erase token
        shown := if s.queue.mounted ∧ token = s.queue.current then
            (factReviewController code requestId).settle token (some answer) s.queue.shown
          else s.queue.shown }
      decisions := s.decisions.map (·.reloaded token) } := by
  simp only [step, RequestGuard.step] at h
  split at h
  next => cases h
  next hawaits =>
    split at h
    next hmem => exact ⟨by simpa using hawaits, hmem, (Option.some.inj h).symm⟩
    next => cases h

/-- **The two ends of a decision**: the queue is fetched again if no other request was made since
the decision, and otherwise the caller is told at once. -/
theorem step_decided {token : ℕ} {answer : Except (Thrown S δ) Unit}
    (h : s.step code requestId (.decided token answer) = some s') :
    s.awaits token = true ∧ token ∈ s.queue.inFlight ∧
      (s.queue.mounted = true ∧ token = s.queue.current ∧ s' = {
          queue := { s.queue with
            current := s.queue.current + 1
            inFlight := s.queue.inFlight.erase token ++ [s.queue.current + 1]
            shown := .loading (s.queue.current + 1) s.queue.shown.data }
          decisions := s.decisions.map (·.goOn token
            (.reloading (s.queue.current + 1) (decisionOutcome code requestId answer))) } ∨
        ¬ (s.queue.mounted = true ∧ token = s.queue.current) ∧ s' = {
          queue := { s.queue with inFlight := s.queue.inFlight.erase token }
          decisions := s.decisions.map
            (·.goOn token (.done (decisionOutcome code requestId answer))) }) := by
  simp only [step] at h
  split at h
  next hawaits =>
    obtain ⟨queue, hqueue, h⟩ := Option.bind_eq_some_iff.mp h
    have hmem := (RequestGuard.step_answer hqueue).1
    have heq : queue = { s.queue with inFlight := s.queue.inFlight.erase token } := by
      simp only [RequestGuard.step, if_pos hmem, factReviewController, ite_self] at hqueue
      exact (Option.some.inj hqueue).symm
    subst heq
    refine ⟨hawaits, hmem, ?_⟩
    split at h
    next hfresh =>
      have hmounted : s.queue.mounted = true := hfresh.1
      simp only [RequestGuard.step] at h
      rw [if_pos hmounted] at h
      exact .inl ⟨hmounted, hfresh.2, (Option.some.inj h).symm⟩
    next hstale => exact .inr ⟨hstale, (Option.some.inj h).symm⟩
  next => cases h

end ReviewQueue

/-- The decision that is made. -/
def ReviewEvent.decision : ReviewEvent ρ S δ → Option (ReviewDecision S)
  | .decide d => some d
  | _ => none

/-- **What holds after the events `l`**: of every decision the caller has been told, or will be
told, what the server answered. -/
structure ReviewQueueInv (code requestId : S) (l : List (ReviewEvent ρ S δ))
    (s : ReviewQueue ρ S δ) : Prop where
  /-- the numbers of requests -/
  numbers : RequestGuard.Inv s.queue
  /-- a number belongs to one decision -/
  nodup : (s.decisions.map (·.token)).Nodup
  /-- it has been given -/
  le : ∀ r ∈ s.decisions, r.token ≤ s.queue.current
  /-- a decision that has not been answered is under way -/
  awaiting : ∀ r ∈ s.decisions, r.status = .awaiting → r.token ∈ s.queue.inFlight
  /-- so is a request that a decision waits for, which is one for the queue -/
  reloading : ∀ r ∈ s.decisions, ∀ n outcome, r.status = .reloading n outcome →
    n ∈ s.queue.inFlight ∧ ∀ r' ∈ s.decisions, r'.status = .awaiting → r'.token ≠ n
  /-- every decision is sent -/
  decisions : s.decisions.map (·.decision) = l.filterMap ReviewEvent.decision
  /-- what a caller is told comes from the server -/
  outcome : ∀ r ∈ s.decisions, ∀ outcome, r.status.outcome = some outcome →
    ∃ answer, .decided r.token answer ∈ l ∧ outcome = decisionOutcome code requestId answer
  /-- what the server answers comes to a caller -/
  answered : ∀ token answer, .decided token answer ∈ l →
    ∃ r ∈ s.decisions, r.token = token ∧
      r.status.outcome = some (decisionOutcome code requestId answer)

namespace ReviewQueueInv

variable {code requestId : S} {l : List (ReviewEvent ρ S δ)} {s s' : ReviewQueue ρ S δ}

theorem start : ReviewQueueInv code requestId [] ({} : ReviewQueue ρ S δ) where
  numbers := .start _
  nodup := .nil
  le _ h := absurd h List.not_mem_nil
  awaiting _ h := absurd h List.not_mem_nil
  reloading _ h := absurd h List.not_mem_nil
  decisions := rfl
  outcome _ h := absurd h List.not_mem_nil
  answered _ _ h := absurd h List.not_mem_nil

/-- A number that is not given belongs to no decision. -/
theorem not_token (h : ReviewQueueInv code requestId l s) {token : ℕ}
    (htoken : s.queue.current < token) {r : SentDecision S (AppException S δ)}
    (hr : r ∈ s.decisions) : r.token ≠ token :=
  Nat.ne_of_lt (Nat.lt_of_le_of_lt (h.le r hr) htoken)

theorem decisions_concat (h : ReviewQueueInv code requestId l s) {e : ReviewEvent ρ S δ}
    (he : e.decision = none) :
    s.decisions.map (·.decision) = (l ++ [e]).filterMap ReviewEvent.decision := by
  rw [List.filterMap_append, h.decisions, List.filterMap_cons_none he]
  exact (List.append_nil _).symm

theorem outcome_concat (h : ReviewQueueInv code requestId l s) (e : ReviewEvent ρ S δ)
    {r : SentDecision S (AppException S δ)} (hr : r ∈ s.decisions)
    {outcome : Except (AppException S δ) Unit} (ho : r.status.outcome = some outcome) :
    ∃ answer, .decided r.token answer ∈ l ++ [e] ∧
      outcome = decisionOutcome code requestId answer := by
  obtain ⟨answer, hmem, heq⟩ := h.outcome r hr outcome ho
  exact ⟨answer, List.mem_append_left _ hmem, heq⟩

theorem answered_concat (h : ReviewQueueInv code requestId l s) {e : ReviewEvent ρ S δ}
    {token : ℕ} {answer : Except (Thrown S δ) Unit} (he : .decided token answer ≠ e)
    (hmem : .decided token answer ∈ l ++ [e]) :
    ∃ r ∈ s.decisions, r.token = token ∧
      r.status.outcome = some (decisionOutcome code requestId answer) := by
  rcases List.mem_append.mp hmem with hmem | hmem
  · exact h.answered token answer hmem
  · exact absurd (List.mem_singleton.mp hmem) he

theorem load (h : ReviewQueueInv code requestId l s)
    (hs : s.step code requestId .load = some s') :
    ReviewQueueInv code requestId (l ++ [.load]) s' := by
  obtain ⟨-, rfl⟩ := ReviewQueue.step_load hs
  refine ⟨h.numbers.start_next _, h.nodup, fun r hr => Nat.le_succ_of_le (h.le r hr),
    fun r hr hw => ?_, fun r hr n o hn => ?_, h.decisions_concat rfl,
    fun r hr _ ho => h.outcome_concat _ hr ho,
    fun _ _ hmem => h.answered_concat (by simp) hmem⟩
  · exact List.mem_append_left _ (h.awaiting r hr hw)
  · obtain ⟨hflight, hne⟩ := h.reloading r hr n o hn
    exact ⟨List.mem_append_left _ hflight, hne⟩

theorem decide (h : ReviewQueueInv code requestId l s) {d : ReviewDecision S}
    (hs : s.step code requestId (.decide d) = some s') :
    ReviewQueueInv code requestId (l ++ [.decide d]) s' := by
  obtain ⟨-, rfl⟩ := ReviewQueue.step_decide hs
  refine ⟨h.numbers.start_next _, ?_, fun r hr => ?_, fun r hr hw => ?_,
    fun r hr n o hn => ?_, ?_, fun r hr o ho => ?_, fun token answer hmem => ?_⟩
  · rw [List.map_append, List.nodup_append]
    refine ⟨h.nodup, List.nodup_singleton _, fun a ha b hb => ?_⟩
    obtain ⟨r, hr, rfl⟩ := List.mem_map.mp ha
    rw [List.mem_singleton.mp hb]
    exact h.not_token (Nat.lt_succ_self _) hr
  · rcases List.mem_append.mp hr with hr | hr
    · exact Nat.le_succ_of_le (h.le r hr)
    · obtain rfl := List.mem_singleton.mp hr
      exact Nat.le_refl _
  · rcases List.mem_append.mp hr with hr | hr
    · exact List.mem_append_left _ (h.awaiting r hr hw)
    · rw [List.mem_singleton.mp hr]
      exact List.mem_concat_self
  · rcases List.mem_append.mp hr with hr | hr
    · obtain ⟨hflight, hne⟩ := h.reloading r hr n o hn
      refine ⟨List.mem_append_left _ hflight, fun r' hr' hw => ?_⟩
      rcases List.mem_append.mp hr' with hr' | hr'
      · exact hne r' hr' hw
      · rw [List.mem_singleton.mp hr']
        exact Nat.ne_of_gt (Nat.lt_succ_of_le (h.numbers.le n hflight))
    · rw [List.mem_singleton.mp hr] at hn
      cases hn
  · rw [List.map_append, List.filterMap_append, h.decisions]
    rfl
  · rcases List.mem_append.mp hr with hr | hr
    · exact h.outcome_concat _ hr ho
    · rw [List.mem_singleton.mp hr] at ho
      cases ho
  · obtain ⟨r, hr, heq, ho⟩ := h.answered_concat (by simp) hmem
    exact ⟨r, List.mem_append_left _ hr, heq, ho⟩

theorem loaded (h : ReviewQueueInv code requestId l s) {token : ℕ}
    {answer : Except (Thrown S δ) (List ρ)}
    (hs : s.step code requestId (.loaded token answer) = some s') :
    ReviewQueueInv code requestId (l ++ [.loaded token answer]) s' := by
  obtain ⟨hawaits, -, rfl⟩ := ReviewQueue.step_loaded hs
  refine ⟨h.numbers.answer _ _, ?_, fun x hx => ?_, fun x hx hw => ?_, fun x hx n o hn => ?_, ?_,
    fun x hx o ho => ?_, fun token' answer' hmem => ?_⟩
  · simpa [Function.comp_def] using h.nodup
  · obtain ⟨r, hr, rfl⟩ := List.mem_map.mp hx
    simpa using h.le r hr
  · obtain ⟨r, hr, rfl⟩ := List.mem_map.mp hx
    have hw := SentDecision.reloaded_awaiting.mp hw
    rw [SentDecision.reloaded_token]
    refine (List.mem_erase_of_ne fun heq => ?_).mpr (h.awaiting r hr hw)
    rw [ReviewQueue.awaits_iff.mpr ⟨r, hr, heq, hw⟩] at hawaits
    cases hawaits
  · obtain ⟨r, hr, rfl⟩ := List.mem_map.mp hx
    obtain ⟨hn, hne⟩ := SentDecision.reloaded_reloading hn
    obtain ⟨hmem, hother⟩ := h.reloading r hr n o hn
    refine ⟨(List.mem_erase_of_ne hne).mpr hmem, fun x' hx' hw => ?_⟩
    obtain ⟨r', hr', rfl⟩ := List.mem_map.mp hx'
    rw [SentDecision.reloaded_token]
    exact hother r' hr' (SentDecision.reloaded_awaiting.mp hw)
  · rw [← h.decisions_concat rfl]
    simp [Function.comp_def]
  · obtain ⟨r, hr, rfl⟩ := List.mem_map.mp hx
    rw [SentDecision.reloaded_outcome] at ho
    rw [SentDecision.reloaded_token]
    exact h.outcome_concat _ hr ho
  · obtain ⟨r, hr, heq, ho⟩ := h.answered_concat (by simp) hmem
    exact ⟨_, List.mem_map_of_mem hr, by rw [SentDecision.reloaded_token, heq],
      by rw [SentDecision.reloaded_outcome, ho]⟩

/-- **A decision goes on** once it has been answered. -/
theorem afterAnswer (h : ReviewQueueInv code requestId l s) {token : ℕ}
    {answer : Except (Thrown S δ) Unit} (hawaits : s.awaits token = true)
    {queue : GuardedState (UiState (List ρ) (AppException S δ))}
    {status : DecisionStatus (AppException S δ)} (hnumbers : RequestGuard.Inv queue)
    (hcurrent : s.queue.current ≤ queue.current)
    (hflight : ∀ n ∈ s.queue.inFlight.erase token, n ∈ queue.inFlight)
    (hstatus : status.isAwaiting = false)
    (houtcome : status.outcome = some (decisionOutcome code requestId answer))
    (hreloading : ∀ n o, status = .reloading n o →
      n ∈ queue.inFlight ∧ ∀ r ∈ s.decisions, r.token ≠ n) :
    ReviewQueueInv code requestId (l ++ [.decided token answer])
      { queue, decisions := s.decisions.map (·.goOn token status) } := by
  obtain ⟨r₀, hr₀, htoken₀, hwaits₀⟩ := ReviewQueue.awaits_iff.mp hawaits
  refine ⟨hnumbers, ?_, fun x hx => ?_, fun x hx hw => ?_, fun x hx n o hn => ?_, ?_,
    fun x hx outcome ho => ?_, fun token' answer' hmem => ?_⟩
  · simpa [Function.comp_def] using h.nodup
  · obtain ⟨r, hr, rfl⟩ := List.mem_map.mp hx
    rw [SentDecision.goOn_token]
    exact Nat.le_trans (h.le r hr) hcurrent
  · obtain ⟨r, hr, rfl⟩ := List.mem_map.mp hx
    obtain ⟨hne, hw⟩ := SentDecision.goOn_awaiting hstatus hw
    rw [SentDecision.goOn_token]
    exact hflight _ ((List.mem_erase_of_ne hne).mpr (h.awaiting r hr hw))
  · obtain ⟨r, hr, rfl⟩ := List.mem_map.mp hx
    have hother : n ∈ queue.inFlight ∧ ∀ r' ∈ s.decisions, r'.status = .awaiting →
        r'.token ≠ n := by
      by_cases heq : r.token = token
      · rw [SentDecision.goOn, if_pos heq] at hn
        exact ⟨(hreloading n o hn).1, fun r' hr' _ => (hreloading n o hn).2 r' hr'⟩
      · rw [SentDecision.goOn, if_neg heq] at hn
        obtain ⟨hmem, hother⟩ := h.reloading r hr n o hn
        exact ⟨hflight n ((List.mem_erase_of_ne fun heq =>
          hother r₀ hr₀ hwaits₀ (htoken₀.trans heq.symm)).mpr hmem), hother⟩
    refine ⟨hother.1, fun x' hx' hw => ?_⟩
    obtain ⟨r', hr', rfl⟩ := List.mem_map.mp hx'
    rw [SentDecision.goOn_token]
    exact hother.2 r' hr' (SentDecision.goOn_awaiting hstatus hw).2
  · rw [← h.decisions_concat rfl]
    simp [Function.comp_def]
  · obtain ⟨r, hr, rfl⟩ := List.mem_map.mp hx
    rw [SentDecision.goOn_token]
    by_cases heq : r.token = token
    · rw [SentDecision.goOn, if_pos heq] at ho
      rw [heq]
      exact ⟨answer, List.mem_concat_self, Option.some.inj (ho.symm.trans houtcome)⟩
    · rw [SentDecision.goOn, if_neg heq] at ho
      exact h.outcome_concat _ hr ho
  · rcases List.mem_append.mp hmem with hmem | hmem
    · obtain ⟨r, hr, heq, ho⟩ := h.answered token' answer' hmem
      refine ⟨_, List.mem_map_of_mem hr, by rw [SentDecision.goOn_token, heq], ?_⟩
      rw [SentDecision.goOn, if_neg fun hsame => ?_, ho]
      -- a decision is answered once
      have hr₀' := List.inj_on_of_nodup_map h.nodup hr hr₀ (hsame.trans htoken₀.symm)
      rw [hr₀', hwaits₀] at ho
      cases ho
    · cases List.mem_singleton.mp hmem
      refine ⟨_, List.mem_map_of_mem hr₀, by rw [SentDecision.goOn_token, htoken₀], ?_⟩
      rw [SentDecision.goOn, if_pos htoken₀, houtcome]

theorem decided (h : ReviewQueueInv code requestId l s) {token : ℕ}
    {answer : Except (Thrown S δ) Unit}
    (hs : s.step code requestId (.decided token answer) = some s') :
    ReviewQueueInv code requestId (l ++ [.decided token answer]) s' := by
  obtain ⟨hawaits, -, hend⟩ := ReviewQueue.step_decided hs
  have hnumbers := h.numbers.answer token s.queue.shown
  rcases hend with ⟨-, rfl, rfl⟩ | ⟨-, rfl⟩
  · refine h.afterAnswer hawaits (hnumbers.start_next _) (Nat.le_succ _)
      (fun _ => List.mem_append_left _) rfl rfl fun n o hn => ?_
    obtain ⟨rfl, -⟩ := DecisionStatus.reloading.inj hn
    exact ⟨List.mem_concat_self, fun r hr => h.not_token (Nat.lt_succ_self _) hr⟩
  · exact h.afterAnswer hawaits hnumbers (Nat.le_refl _) (fun _ hn => hn) rfl rfl
      fun n o hn => by cases hn

theorem dispose (h : ReviewQueueInv code requestId l s)
    (hs : s.step code requestId .dispose = some s') :
    ReviewQueueInv code requestId (l ++ [.dispose]) s' := by
  obtain rfl := Option.some.inj hs
  exact ⟨⟨h.numbers.nodup, h.numbers.le⟩, h.nodup, h.le, h.awaiting, h.reloading,
    h.decisions_concat rfl, fun r hr _ ho => h.outcome_concat _ hr ho,
    fun _ _ hmem => h.answered_concat (by simp) hmem⟩

/-- **Every event keeps it.** -/
theorem step (h : ReviewQueueInv code requestId l s) {e : ReviewEvent ρ S δ}
    (hs : s.step code requestId e = some s') : ReviewQueueInv code requestId (l ++ [e]) s' := by
  cases e with
  | load => exact h.load hs
  | decide d => exact h.decide hs
  | loaded token answer => exact h.loaded hs
  | decided token answer => exact h.decided hs
  | dispose => exact h.dispose hs

theorem not_awaits_of_rest (h : ReviewQueueInv code requestId l s) (hrest : s.queue.inFlight = [])
    {token : ℕ} : ¬ s.awaits token = true := by
  intro hawaits
  obtain ⟨r, hr, -, hw⟩ := ReviewQueue.awaits_iff.mp hawaits
  have hmem := h.awaiting r hr hw
  rw [hrest] at hmem
  cases hmem

/-- At rest every caller has been told. -/
theorem done_of_rest (h : ReviewQueueInv code requestId l s) (hrest : s.queue.inFlight = [])
    {r : SentDecision S (AppException S δ)} (hr : r ∈ s.decisions) :
    ∃ outcome, r.status = .done outcome := by
  cases hstatus : r.status with
  | awaiting =>
    have hmem := h.awaiting r hr hstatus
    rw [hrest] at hmem
    cases hmem
  | reloading n outcome =>
    have hmem := (h.reloading r hr n outcome hstatus).1
    rw [hrest] at hmem
    cases hmem
  | done outcome => exact ⟨outcome, rfl⟩

theorem run (hrun : runSteps (ReviewQueue.step code requestId) {} l = some s) :
    ReviewQueueInv code requestId l s :=
  runSteps_history (H := ReviewQueueInv code requestId) (fun _ _ _ _ h hs => h.step hs) start hrun

end ReviewQueueInv

/-! ## What a caller is told -/

variable {code requestId : S} {l : List (ReviewEvent ρ S δ)} {s' : ReviewQueue ρ S δ}

/-- **What a caller is told.** The decisions that are sent are those that are made. Whenever a
caller is told how a decision ended, the server has answered it so: it reads as done only if the
server accepted it. And when nothing is under way any more, every caller has been told the one
answer to its decision, whatever was requested in the meantime, whether or not the queue could be
fetched again, and even when the controller has been disposed. -/
theorem decision_reported
    (hrun : runSteps (ReviewQueue.step code requestId) {} l = some s') :
    s'.decisions.map (·.decision) = l.filterMap ReviewEvent.decision ∧
      (∀ r ∈ s'.decisions, r.status = .done (.ok ()) → .decided r.token (.ok ()) ∈ l) ∧
      (∀ r ∈ s'.decisions, ∀ e, r.status = .done (.error e) →
        ∃ thrown, .decided r.token (.error thrown) ∈ l ∧ e = thrown.toAppException code requestId) ∧
      (s'.queue.inFlight = [] → ∀ r ∈ s'.decisions, ∃ answer, .decided r.token answer ∈ l ∧
        r.status = .done (decisionOutcome code requestId answer) ∧
        ∀ answer', .decided r.token answer' ∈ l →
          decisionOutcome code requestId answer' = decisionOutcome code requestId answer) := by
  have h := ReviewQueueInv.run hrun
  refine ⟨h.decisions, fun r hr hdone => ?_, fun r hr e hdone => ?_, fun hrest r hr => ?_⟩
  · obtain ⟨answer, hmem, hout⟩ := h.outcome r hr _ (congrArg DecisionStatus.outcome hdone)
    cases answer with
    | ok u => exact hmem
    | error thrown => cases hout
  · obtain ⟨answer, hmem, hout⟩ := h.outcome r hr _ (congrArg DecisionStatus.outcome hdone)
    cases answer with
    | ok u => cases hout
    | error thrown => exact ⟨thrown, hmem, Except.error.inj hout⟩
  · obtain ⟨outcome, hdone⟩ := h.done_of_rest hrest hr
    obtain ⟨answer, hmem, rfl⟩ := h.outcome r hr _ (congrArg DecisionStatus.outcome hdone)
    refine ⟨answer, hmem, hdone, fun answer' hmem' => ?_⟩
    obtain ⟨r', hr', htoken, hout⟩ := h.answered r.token answer' hmem'
    rw [List.inj_on_of_nodup_map h.nodup hr' hr htoken, hdone] at hout
    exact (Option.some.inj hout).symm

/-- A candidate is approved while the queue is fetched, and the server refuses. -/
def refusedDecision : List (ReviewEvent ℕ ℕ Unit) :=
  [.load, .decide (.approveCandidate 5 none none), .loaded 1 (.ok [5]),
    .decided 2 (.error (.other 7)), .loaded 3 (.ok [])]

/-- The state after it: the queue has been fetched again. -/
def afterRefusedDecision : ReviewQueue ℕ ℕ Unit where
  queue := ⟨3, [], true, .empty 3⟩
  decisions :=
    [⟨2, .approveCandidate 5 none none, .done (.error ⟨.unknown, 0, 7, 1, false, [], none⟩)⟩]

theorem decision_reported_refused :
    ∃ thrown, .decided 2 (.error thrown) ∈ refusedDecision ∧
      (⟨.unknown, 0, 7, 1, false, [], none⟩ : AppException ℕ Unit) = thrown.toAppException 0 1 := by
  have hrun : runSteps (ReviewQueue.step 0 1) {} refusedDecision = some afterRefusedDecision := rfl
  exact (decision_reported hrun).2.2.1 _ (List.mem_singleton_self _) _ rfl

/-! ## What is shown -/

/-- What is shown after the events `l`: as long as the controller is not disposed, its latest
request is under way, or has been answered with what is shown. -/
def ShowsLatest (code requestId : S) (l : List (ReviewEvent ρ S δ)) (s : ReviewQueue ρ S δ) :
    Prop :=
  s.queue.mounted = true → s.queue.current = 0 ∨ s.queue.current ∈ s.queue.inFlight ∨
    ∃ answer, .loaded s.queue.current answer ∈ l ∧
      s.queue.shown = (factReviewController code requestId).settle s.queue.current (some answer)
        .initial

theorem ShowsLatest.step {s : ReviewQueue ρ S δ} (h : ShowsLatest code requestId l s)
    {e : ReviewEvent ρ S δ} (hs : s.step code requestId e = some s') :
    ShowsLatest code requestId (l ++ [e]) s' := by
  intro hmounted
  cases e with
  | load =>
    obtain ⟨-, rfl⟩ := ReviewQueue.step_load hs
    exact .inr (.inl List.mem_concat_self)
  | decide d =>
    obtain ⟨-, rfl⟩ := ReviewQueue.step_decide hs
    exact .inr (.inl List.mem_concat_self)
  | loaded token answer =>
    obtain ⟨-, -, rfl⟩ := ReviewQueue.step_loaded hs
    have hmounted : s.queue.mounted = true := hmounted
    by_cases heq : token = s.queue.current
    · refine .inr (.inr ⟨answer, ?_, ?_⟩)
      · exact heq ▸ List.mem_concat_self
      · refine (if_pos ⟨hmounted, heq⟩).trans ?_
        rw [heq]
        cases answer <;> rfl
    · rcases h hmounted with hzero | hflight | ⟨answer', hmem, hshown⟩
      · exact .inl hzero
      · exact .inr (.inl ((List.mem_erase_of_ne (Ne.symm heq)).mpr hflight))
      · exact .inr (.inr ⟨answer', List.mem_append_left _ hmem,
          (if_neg fun hboth => heq hboth.2).trans hshown⟩)
  | decided token answer =>
    obtain ⟨-, -, hend⟩ := ReviewQueue.step_decided hs
    rcases hend with ⟨-, -, rfl⟩ | ⟨hstale, rfl⟩
    · exact .inr (.inl List.mem_concat_self)
    · have hmounted : s.queue.mounted = true := hmounted
      rcases h hmounted with hzero | hflight | ⟨answer', hmem, hshown⟩
      · exact .inl hzero
      · have hne : s.queue.current ≠ token := fun heq => hstale ⟨hmounted, heq.symm⟩
        exact .inr (.inl ((List.mem_erase_of_ne hne).mpr hflight))
      · exact .inr (.inr ⟨answer', List.mem_append_left _ hmem, hshown⟩)
  | dispose =>
    obtain rfl := Option.some.inj hs
    cases hmounted

theorem ShowsLatest.run (hrun : runSteps (ReviewQueue.step code requestId) {} l = some s') :
    ShowsLatest code requestId l s' := by
  have hstart : ShowsLatest code requestId [] ({} : ReviewQueue ρ S δ) := fun _ => .inl rfl
  exact runSteps_history (fun _ _ _ _ h hs => h.step hs) hstart hrun

/-- A call of `loadCandidates` or a decision. -/
def ReviewEvent.isRequest : ReviewEvent ρ S δ → Bool
  | .load | .decide _ => true
  | _ => false

/-- A decision that has not been answered was made. -/
theorem ReviewQueueInv.exists_request {s : ReviewQueue ρ S δ}
    (h : ReviewQueueInv code requestId l s) {token : ℕ} (hawaits : s.awaits token = true) :
    ∃ e ∈ l, e.isRequest = true := by
  obtain ⟨r, hr, -, -⟩ := ReviewQueue.awaits_iff.mp hawaits
  have hmem := List.mem_map_of_mem (f := (·.decision)) hr
  rw [h.decisions] at hmem
  obtain ⟨e, he, hdecision⟩ := List.mem_filterMap.mp hmem
  refine ⟨e, he, ?_⟩
  cases e with
  | decide d => rfl
  | load | loaded | decided | dispose => cases hdecision

namespace ReviewQueue

variable {s : ReviewQueue ρ S δ}

/-- The numbers rise. -/
theorem current_step {e : ReviewEvent ρ S δ} (hs : s.step code requestId e = some s') :
    s.queue.current + (if e.isRequest then 1 else 0) ≤ s'.queue.current := by
  cases e with
  | load =>
    obtain ⟨-, rfl⟩ := step_load hs
    exact Nat.le_refl _
  | decide d =>
    obtain ⟨-, rfl⟩ := step_decide hs
    exact Nat.le_refl _
  | loaded token answer =>
    obtain ⟨-, -, rfl⟩ := step_loaded hs
    exact Nat.le_refl _
  | decided token answer =>
    obtain ⟨-, -, ⟨-, -, rfl⟩ | ⟨-, rfl⟩⟩ := step_decided hs
    · exact Nat.le_succ _
    · exact Nat.le_refl _
  | dispose =>
    obtain rfl := Option.some.inj hs
    exact Nat.le_refl _

theorem mounted_step {e : ReviewEvent ρ S δ} (he : e ≠ .dispose)
    (hs : s.step code requestId e = some s') : s'.queue.mounted = s.queue.mounted := by
  cases e with
  | load =>
    obtain ⟨-, rfl⟩ := step_load hs
    rfl
  | decide d =>
    obtain ⟨-, rfl⟩ := step_decide hs
    rfl
  | loaded token answer =>
    obtain ⟨-, -, rfl⟩ := step_loaded hs
    rfl
  | decided token answer =>
    obtain ⟨-, -, ⟨-, -, rfl⟩ | ⟨-, rfl⟩⟩ := step_decided hs
    · rfl
    · rfl
  | dispose => exact absurd rfl he

theorem mounted_run (hdispose : .dispose ∉ l)
    (hrun : runSteps (ReviewQueue.step code requestId) s l = some s') :
    s'.queue.mounted = s.queue.mounted :=
  runSteps_invariant (I := fun t => t.queue.mounted = s.queue.mounted)
    (fun _ he _ _ hi hs => (mounted_step (fun heq => hdispose (heq ▸ he)) hs).trans hi) rfl hrun

theorem current_run (hrun : runSteps (ReviewQueue.step code requestId) s l = some s') :
    s.queue.current ≤ s'.queue.current :=
  runSteps_invariant (I := fun t => s.queue.current ≤ t.queue.current)
    (fun _ _ _ _ hi hs => Nat.le_trans hi (Nat.le_of_add_right_le (current_step hs)))
    (Nat.le_refl _) hrun

/-- A request has a number of its own. -/
theorem current_run_lt (hrequest : ∃ e ∈ l, e.isRequest = true)
    (hrun : runSteps (ReviewQueue.step code requestId) s l = some s') :
    s.queue.current < s'.queue.current := by
  obtain ⟨e, he, hrequest⟩ := hrequest
  obtain ⟨l₁, l₂, rfl⟩ := List.append_of_mem he
  rw [runSteps_append] at hrun
  obtain ⟨t, ht, hrun⟩ := Option.bind_eq_some_iff.mp hrun
  obtain ⟨t', ht', hrun⟩ := runSteps_cons hrun
  have hstep := current_step ht'
  rw [if_pos hrequest] at hstep
  exact Nat.lt_of_le_of_lt (current_run ht) (Nat.lt_of_lt_of_le hstep (current_run hrun))

/-- As long as the latest request is a decision without an answer, another request will follow. -/
theorem awaits_run {n : ℕ} (hdispose : .dispose ∉ l) (hmounted : s.queue.mounted = true)
    (hcurrent : s.queue.current = n) (hawaits : s.awaits n = true)
    (hrun : runSteps (ReviewQueue.step code requestId) s l = some s') :
    n < s'.queue.current ∨ s'.awaits n = true := by
  have h := runSteps_invariant (I := fun t => n < t.queue.current ∨
    t.queue.current = n ∧ t.queue.mounted = true ∧ t.awaits n = true)
    (fun e he t t' hi hs => ?_) (.inr ⟨hcurrent, hmounted, hawaits⟩) hrun
  · exact h.imp_right fun h => h.2.2
  rcases hi with hlt | ⟨hcur, hmount, haw⟩
  · exact .inl (Nat.lt_of_lt_of_le hlt (Nat.le_of_add_right_le (current_step hs)))
  cases e with
  | load =>
    obtain ⟨-, rfl⟩ := step_load hs
    exact .inl (hcur ▸ Nat.lt_succ_self _)
  | decide d =>
    obtain ⟨-, rfl⟩ := step_decide hs
    exact .inl (hcur ▸ Nat.lt_succ_self _)
  | loaded token answer =>
    obtain ⟨-, -, rfl⟩ := step_loaded hs
    exact .inr ⟨hcur, hmount, awaits_reloaded.trans haw⟩
  | decided token answer =>
    obtain ⟨-, -, ⟨-, -, rfl⟩ | ⟨hstale, rfl⟩⟩ := step_decided hs
    · exact .inl (hcur ▸ Nat.lt_succ_self _)
    · have hne : n ≠ token := fun heq => hstale ⟨hmount, heq.symm.trans hcur.symm⟩
      exact .inr ⟨hcur, hmount, (awaits_goOn hne).trans haw⟩
  | dispose => exact absurd he hdispose

/-- If it is not, and nothing else is requested, it stays the latest. -/
theorem not_awaits_run {n : ℕ} (hrequest : ∀ e ∈ l, e.isRequest = false)
    (hcurrent : s.queue.current = n) (hawaits : s.awaits n = false)
    (hrun : runSteps (ReviewQueue.step code requestId) s l = some s') : s'.queue.current = n := by
  have h := runSteps_invariant (I := fun t => t.queue.current = n ∧ t.awaits n = false)
    (fun e he t t' hi hs => ?_) ⟨hcurrent, hawaits⟩ hrun
  · exact h.1
  obtain ⟨hcur, haw⟩ := hi
  have hnot := hrequest e he
  cases e with
  | load => cases hnot
  | decide d => cases hnot
  | loaded token answer =>
    obtain ⟨-, -, rfl⟩ := step_loaded hs
    exact ⟨hcur, awaits_reloaded.trans haw⟩
  | decided token answer =>
    obtain ⟨hawaits, -, hend⟩ := step_decided hs
    have hne : n ≠ token := by
      rintro rfl
      rw [haw] at hawaits
      cases hawaits
    rcases hend with ⟨-, rfl, -⟩ | ⟨-, rfl⟩
    · exact absurd hcur.symm hne
    · exact ⟨hcur, (awaits_goOn hne).trans haw⟩
  | dispose =>
    obtain rfl := Option.some.inj hs
    exact ⟨hcur, haw⟩

end ReviewQueue

/-- At rest the latest request has been answered with what is shown. -/
theorem answered_of_rest (hrequest : ∃ e ∈ l, e.isRequest = true) (hdispose : .dispose ∉ l)
    (hrun : runSteps (ReviewQueue.step code requestId) {} l = some s')
    (hrest : s'.queue.inFlight = []) :
    ∃ answer, .loaded s'.queue.current answer ∈ l ∧
      s'.queue.shown = (factReviewController code requestId).settle s'.queue.current (some answer)
        .initial := by
  have hpos := ReviewQueue.current_run_lt hrequest hrun
  rcases ShowsLatest.run hrun (ReviewQueue.mounted_run hdispose hrun) with hzero | hflight | hshown
  · rw [hzero] at hpos
    cases hpos
  · rw [hrest] at hflight
    cases hflight
  · exact hshown

/-- **At rest** a controller that is not disposed shows the answer to its latest request for the
queue: the candidates, or why they could not be fetched; it never keeps saying that it loads. -/
theorem review_settles (hrequest : ∃ e ∈ l, e.isRequest = true) (hdispose : .dispose ∉ l)
    (hrun : runSteps (ReviewQueue.step code requestId) {} l = some s')
    (hrest : s'.queue.inFlight = []) :
    ∃ answer, .loaded s'.queue.current answer ∈ l ∧
      s'.queue.shown.status.isPending = false ∧
      s'.queue.shown.requestToken = s'.queue.current ∧
      (∀ items, answer = .ok items → s'.queue.shown = .ofList items s'.queue.current) ∧
      ∀ e, answer = .error e →
        s'.queue.shown = .failure (e.toAppException code requestId) s'.queue.current none := by
  obtain ⟨answer, hmem, hshown⟩ := answered_of_rest hrequest hdispose hrun hrest
  refine ⟨answer, hmem, ?_⟩
  rw [hshown]
  cases answer with
  | ok items =>
    refine ⟨UiState.ofList_not_pending _ _, UiState.ofList_requestToken _ _, fun _ h => ?_,
      fun _ h => ?_⟩
    · rw [← Except.ok.inj h]
      rfl
    · cases h
  | error e =>
    refine ⟨UiState.failure_not_pending _ _ _, rfl, fun _ h => ?_, fun _ h => ?_⟩
    · cases h
    · rw [← Except.error.inj h]
      rfl

theorem review_settles_refused :
    ∃ answer, .loaded 3 answer ∈ refusedDecision ∧ ∀ items, answer = .ok items →
      (UiState.empty 3 : UiState _ (AppException ℕ Unit)) = .ofList items 3 := by
  have hrun : runSteps (ReviewQueue.step 0 1) {} refusedDecision = some afterRefusedDecision := rfl
  obtain ⟨answer, hmem, -, -, hshown, -⟩ :=
    review_settles ⟨.load, List.mem_cons_self, rfl⟩ (by simp) hrun rfl
  exact ⟨answer, hmem, hshown⟩

/-- **When the queue is up to date.** A decision is answered in the state `s₁`. At rest the queue
that is shown was requested after this answer if and only if the latest request of `s₁` was a
decision without an answer, such as this one, or something was requested later. So a decision that
is overtaken by a fetch of the queue leaves a queue that may still hold its candidate. -/
theorem review_upToDate {l₁ l₂ : List (ReviewEvent ρ S δ)} {token : ℕ}
    {answer : Except (Thrown S δ) Unit} {s₁ : ReviewQueue ρ S δ}
    (hdispose : .dispose ∉ l₁ ++ .decided token answer :: l₂)
    (h₁ : runSteps (ReviewQueue.step code requestId) {} l₁ = some s₁)
    (hrun : runSteps (ReviewQueue.step code requestId) s₁ (.decided token answer :: l₂) = some s')
    (hrest : s'.queue.inFlight = []) :
    s'.queue.shown.requestToken = s'.queue.current ∧
      (s₁.queue.current < s'.queue.current ↔
        s₁.awaits s₁.queue.current = true ∨ ∃ e ∈ l₂, e.isRequest = true) := by
  have hwhole : runSteps (ReviewQueue.step code requestId) {} (l₁ ++ .decided token answer :: l₂) =
      some s' := by
    rw [runSteps_append, h₁]
    exact hrun
  have hmounted : s₁.queue.mounted = true :=
    ReviewQueue.mounted_run (fun h => hdispose (List.mem_append_left _ h)) h₁
  obtain ⟨t, ht, hrest₂⟩ := runSteps_cons hrun
  refine ⟨?_, fun hlt => ?_, fun hcause => ?_⟩
  · -- the decision was requested before
    obtain ⟨e, he, hrequest⟩ :=
      (ReviewQueueInv.run h₁).exists_request (ReviewQueue.step_decided ht).1
    obtain ⟨answer', -, hshown⟩ :=
      answered_of_rest ⟨e, List.mem_append_left _ he, hrequest⟩ hdispose hwhole hrest
    rw [hshown]
    cases answer' with
    | ok items => exact UiState.ofList_requestToken _ _
    | error e => rfl
  · by_contra hnot
    rw [not_or, Bool.not_eq_true] at hnot
    have heq := ReviewQueue.not_awaits_run (fun e he => ?_) rfl hnot.1 hrun
    · exact absurd heq (Nat.ne_of_gt hlt)
    rcases List.mem_cons.mp he with rfl | he
    · rfl
    · by_contra hrequest
      exact hnot.2 ⟨e, he, by simpa using hrequest⟩
  · rcases hcause with hawaits | hrequest
    · rcases ReviewQueue.awaits_run (fun h => hdispose (List.mem_append_right _ h)) hmounted rfl
        hawaits hrun with hlt | hawaits'
      · exact hlt
      · exact absurd hawaits' ((ReviewQueueInv.run hwhole).not_awaits_of_rest hrest)
    · exact Nat.lt_of_le_of_lt (Nat.le_of_add_right_le (ReviewQueue.current_step ht))
        (ReviewQueue.current_run_lt hrequest hrest₂)

/-- The queue is fetched while a decision is under way. -/
def afterOvertaken : ReviewQueue ℕ ℕ Unit where
  queue := ⟨2, [1], true, .success [5] 2⟩
  decisions := [⟨1, .rejectCandidate 5 6, .awaiting⟩]

/-- The rejected candidate is still shown. -/
theorem review_upToDate_overtaken :
    (2 < 2 ↔ afterOvertaken.awaits 2 = true ∨
      ∃ e ∈ ([] : List (ReviewEvent ℕ ℕ Unit)), e.isRequest = true) := by
  have h₁ : runSteps (ReviewQueue.step 0 1) {} [.decide (.rejectCandidate 5 6), .load,
      .loaded 2 (.ok [5])] = some afterOvertaken := rfl
  have hrun : runSteps (ReviewQueue.step 0 1) afterOvertaken [.decided 1 (.ok ())] =
      some ⟨⟨2, [], true, .success [5] 2⟩, [⟨1, .rejectCandidate 5 6, .done (.ok ())⟩]⟩ := rfl
  exact (review_upToDate (by simp) h₁ hrun rfl).2

end FinanceIntelligence
