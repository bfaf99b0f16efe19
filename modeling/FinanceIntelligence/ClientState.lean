import FinanceIntelligence.LatestRequest

/-!
# What the controllers of the client show

A `UiState` (presentation/state/async_value_state.dart) says what a controller shows: that a request
is under way, its data or its failure. `DocumentListController` and `ComparisonController`
(presentation/state/) send requests, some of them while others are under way, and drop an answer
unless it is that to the latest one.

* `documentList_latest` — at rest **the answer to the latest request** is shown, whatever the order
  of the answers.
* `comparison_singleFlight` — a comparison is sent only when no other is under way, so that no
  answer is dropped.
-/

namespace FinanceIntelligence

/-! ## Failures -/

/-- The subclasses of `AppException` (core/models/app_exception.dart). -/
inductive ExceptionKind where
  | validation
  | authentication
  | attestation
  | authorization
  | notFound
  | conflict
  | rateLimit
  | dataQuality
  | network
  | timeout
  | server
  | unsupportedContract
  | unknown
deriving DecidableEq

/-- An `AppException` with texts `S` and details `δ`. -/
structure AppException (S δ : Type) where
  /-- its class -/
  kind : ExceptionKind
  code : S
  message : S
  requestId : S
  retryable : Bool := false
  details : List δ := []
  statusCode : Option ℕ := none
deriving DecidableEq

/-- What a repository throws. -/
inductive Thrown (S δ : Type) where
  /-- an `AppException` -/
  | app (e : AppException S δ)
  /-- anything else, by its `toString()` -/
  | other (text : S)

/-- The `AppException` that a controller makes of it. -/
def Thrown.toAppException {S δ : Type} (code requestId : S) : Thrown S δ → AppException S δ
  | app e => e
  | other text => { kind := .unknown, code := code, message := text, requestId := requestId }

/-! ## States -/

/-- `AsyncStatus` -/
inductive AsyncStatus where
  | initial
  | loading
  | refreshing
  | success
  | empty
  | partialSuccessWithWarnings
  | validationFailure
  | authFailure
  | permissionFailure
  | networkFailure
  | serverFailure
  | terminalFailure
deriving DecidableEq

/-- A request is under way. -/
def AsyncStatus.isPending : AsyncStatus → Bool
  | loading | refreshing => true
  | _ => false

/-- The status of a failure. -/
def ExceptionKind.status : ExceptionKind → AsyncStatus
  | validation => .validationFailure
  | authentication => .authFailure
  | authorization => .permissionFailure
  | network | timeout => .networkFailure
  | server => .serverFailure
  | _ => .terminalFailure

theorem ExceptionKind.status_not_pending (k : ExceptionKind) : k.status.isPending = false := by
  cases k <;> rfl

/-- `UiState`, with failures `E`. -/
structure UiState (τ E : Type) where
  status : AsyncStatus
  data : Option τ := none
  exception : Option E := none
  requestToken : ℕ := 0

namespace UiState

variable {τ S δ : Type}

/-- `UiState.initial` -/
def initial : UiState τ (AppException S δ) := { status := .initial }

/-- `UiState.loading` -/
def loading (requestToken : ℕ) (currentData : Option τ) : UiState τ (AppException S δ) where
  status := .loading
  data := currentData
  requestToken := requestToken

/-- `UiState.refreshing` -/
def refreshing (requestToken : ℕ) (currentData : τ) : UiState τ (AppException S δ) where
  status := .refreshing
  data := some currentData
  requestToken := requestToken

/-- `UiState.success` -/
def success (data : τ) (requestToken : ℕ) : UiState τ (AppException S δ) where
  status := .success
  data := some data
  requestToken := requestToken

/-- `UiState.empty` -/
def empty (requestToken : ℕ) : UiState τ (AppException S δ) where
  status := .empty
  requestToken := requestToken

/-- `UiState.failure` -/
def failure (exception : AppException S δ) (requestToken : ℕ) (currentData : Option τ) :
    UiState τ (AppException S δ) where
  status := exception.kind.status
  data := currentData
  exception := some exception
  requestToken := requestToken

/-- `isLoading` -/
def isLoading (s : UiState τ (AppException S δ)) : Bool := s.status == .loading

/-- A list that has been fetched. -/
def ofList (data : List τ) (requestToken : ℕ) : UiState (List τ) (AppException S δ) :=
  if data.isEmpty then empty requestToken else success data requestToken

@[simp] theorem ofList_requestToken (data : List τ) (token : ℕ) :
    (ofList data token : UiState _ (AppException S δ)).requestToken = token := by
  unfold ofList
  split <;> rfl

theorem ofList_not_pending (data : List τ) (token : ℕ) :
    (ofList data token : UiState _ (AppException S δ)).status.isPending = false := by
  unfold ofList
  split <;> rfl

theorem failure_not_pending (e : AppException S δ) (token : ℕ) (data : Option τ) :
    (failure e token data).status.isPending = false :=
  e.kind.status_not_pending

end UiState

/-! ## Lists that are fetched -/

section Controllers

variable {τ S δ : Type}

/-- `DocumentListController`: `loadDocuments` with `isRefresh`. -/
def documentListController (code unknownId : S) :
    RequestGuard Bool (Except (Thrown S δ) (List τ)) (UiState (List τ) (AppException S δ)) where
  begin isRefresh token s :=
    match isRefresh, s.data with
    | true, some data => .refreshing token data
    | _, _ => .loading token none
  settle token answer s :=
    match answer with
    | .ok documents => .ofList documents token
    | .error e => .failure (e.toAppException code unknownId) token s.data

/-- **The latest list of documents.** Once every request is answered, in whatever order, the
documents of the latest one, after which no other is sent, are shown, or its failure; if it is a
refresh that fails, the documents that were shown when it was sent are kept. -/
theorem documentList_latest {code unknownId : S} {l : List (GuardedEvent Bool
      (Except (Thrown S δ) (List τ)))} {s' : GuardedState (UiState (List τ) (AppException S δ))}
    (hstart : ∃ isRefresh, .start isRefresh ∈ l) (hdispose : .dispose ∉ l)
    (hrun : runSteps (documentListController code unknownId).step { shown := .initial } l = some s')
    (hrest : s'.inFlight = []) :
    ∃ l₁ isRefresh l₂ s₁ answer, l = l₁ ++ .start isRefresh :: l₂ ∧ (∀ p, .start p ∉ l₂) ∧
      runSteps (documentListController code unknownId).step { shown := .initial } l₁ = some s₁ ∧
      .answer s'.current answer ∈ l₂ ∧ s'.shown.status.isPending = false ∧
      s'.shown.requestToken = s'.current ∧
      (∀ documents, answer = .ok documents → s'.shown = .ofList documents s'.current) ∧
      ∀ e, answer = .error e → s'.shown = .failure (e.toAppException code unknownId) s'.current
        (if isRefresh then s₁.shown.data else none) := by
  obtain ⟨l₁, p, l₂, s₁, r, rfl, hl₂, h₁, hr, hshown⟩ :=
    RequestGuard.latest_at_rest hstart hdispose hrun hrest
  have hlatest : ∀ q, .start q ∉ l₂ := by
    intro q hq
    obtain ⟨_, _, hanswer⟩ := hl₂ _ hq
    cases hanswer
  refine ⟨l₁, p, l₂, s₁, r, rfl, hlatest, h₁, hr, ?_⟩
  have hdata : ((documentListController code unknownId).begin p s'.current s₁.shown).data =
      if p then s₁.shown.data else none := by
    cases p with
    | false => rfl
    | true =>
      cases hs : s₁.shown.data with
      | none => simp [documentListController, hs, UiState.loading]
      | some data => simp [documentListController, hs, UiState.refreshing]
  rw [hshown]
  cases r with
  | ok documents =>
    refine ⟨UiState.ofList_not_pending _ _, UiState.ofList_requestToken _ _, fun _ h => ?_,
      fun _ h => by cases h⟩
    rw [← Except.ok.inj h]
    rfl
  | error e =>
    refine ⟨UiState.failure_not_pending _ _ _, rfl, fun _ h => ?_, fun e' h => ?_⟩
    · cases h
    rw [← Except.error.inj h, ← hdata]
    rfl

/-- Two lists are sent for and the later is shown; a refresh fails, and the earlier list comes. -/
def overtakenList : List (GuardedEvent Bool (Except (Thrown ℕ Unit) (List ℕ))) :=
  [.start false, .start false, .answer 2 (.ok [4]), .start true, .answer 3 (.error (.other 7)),
    .answer 1 (.ok [5])]

/-- The failure is shown, and the later list is kept. -/
theorem documentList_latest_two :
    ∃ l₁ isRefresh l₂ s₁ answer, overtakenList = l₁ ++ .start isRefresh :: l₂ ∧
      (∀ p, .start p ∉ l₂) ∧ .answer 3 answer ∈ l₂ ∧
      runSteps (documentListController 0 1).step { shown := .initial } l₁ = some s₁ ∧
      ∀ e, answer = .error e →
        (UiState.failure ⟨.unknown, 0, 7, 1, false, [], none⟩ 3 (some [4]) : UiState (List ℕ) _) =
          .failure (e.toAppException 0 1) 3 (if isRefresh then s₁.shown.data else none) := by
  have hrun : runSteps (documentListController 0 1).step { shown := .initial } overtakenList =
      some ⟨3, [], true, .failure ⟨.unknown, 0, 7, 1, false, [], none⟩ 3 (some [4])⟩ := rfl
  obtain ⟨l₁, isRefresh, l₂, s₁, answer, hl, hlatest, h₁, hmem, -, -, -, herror⟩ :=
    documentList_latest ⟨false, List.mem_cons_self⟩ (by simp) hrun rfl
  exact ⟨l₁, isRefresh, l₂, s₁, answer, hl, hlatest, hmem, h₁, herror⟩

/-! ## Comparisons -/

variable {π J : Type}

/-- `ComparisonController`: what `executeComparison` shows. `decode` is
`ResultDataset.fromJson(resJson['result_dataset'])`. -/
def comparisonController (π : Type) (decode : J → Except (Thrown S δ) τ) (code unknownId : S) :
    RequestGuard π (Except (Thrown S δ) J) (UiState τ (AppException S δ)) where
  begin _ token s := .loading token s.data
  settle token answer s :=
    match answer.bind decode with
    | .ok dataset => .success dataset token
    | .error e => .failure (e.toAppException code unknownId) token s.data

/-- One event of the controller; `if (state.isLoading) return;` -/
def comparisonStep (π : Type) (decode : J → Except (Thrown S δ) τ) (code unknownId : S)
    (s : GuardedState (UiState τ (AppException S δ)))
    (e : GuardedEvent π (Except (Thrown S δ) J)) :
    Option (GuardedState (UiState τ (AppException S δ))) :=
  match e with
  | .start request =>
    if s.shown.isLoading then some s
    else (comparisonController π decode code unknownId).step s (.start request)
  | e => (comparisonController π decode code unknownId).step s e

/-- At most one comparison is under way, and then the controller shows it. -/
structure OneInFlight (s : GuardedState (UiState τ (AppException S δ))) : Prop where
  /-- at most one -/
  le_one : s.inFlight.length ≤ 1
  /-- the latest -/
  current : ∀ token ∈ s.inFlight, token = s.current
  /-- it is shown -/
  isLoading : s.mounted = true → (s.shown.isLoading = true ↔ s.inFlight ≠ [])

theorem settle_not_loading {decode : J → Except (Thrown S δ) τ} {code unknownId : S} (token : ℕ)
    (answer : Except (Thrown S δ) J) (s : UiState τ (AppException S δ)) :
    ((comparisonController π decode code unknownId).settle token answer s).isLoading = false := by
  simp only [comparisonController]
  cases answer.bind decode with
  | ok dataset => rfl
  | error e =>
    have hpending := UiState.failure_not_pending (e.toAppException code unknownId) token s.data
    simp only [UiState.isLoading, beq_eq_false_iff_ne]
    intro heq
    rw [heq] at hpending
    cases hpending

theorem OneInFlight.step {decode : J → Except (Thrown S δ) τ} {code unknownId : S}
    {s s' : GuardedState (UiState τ (AppException S δ))} (h : OneInFlight s)
    {e : GuardedEvent π (Except (Thrown S δ) J)}
    (hs : comparisonStep π decode code unknownId s e = some s') : OneInFlight s' := by
  cases e with
  | start request =>
    simp only [comparisonStep] at hs
    split at hs
    next =>
      obtain rfl := Option.some.inj hs
      exact h
    next hidle =>
      simp only [RequestGuard.step] at hs
      split at hs
      next hmounted =>
        obtain rfl := Option.some.inj hs
        have hnil : s.inFlight = [] := by
          by_contra hne
          exact hidle ((h.isLoading hmounted).mpr hne)
        refine ⟨?_, fun token htoken => ?_, fun _ => ⟨fun _ => ?_, fun _ => rfl⟩⟩
        · simp [hnil]
        · simpa [hnil] using htoken
        · simp
      next => cases hs
  | answer token r =>
    obtain ⟨hmem, hcur, hmounted, hflight, hshown⟩ := RequestGuard.step_answer hs
    have hone : s.inFlight = [token] := by
      have hle := h.le_one
      obtain ⟨x, l, hl⟩ := List.exists_cons_of_ne_nil (List.ne_nil_of_mem hmem)
      rw [hl] at hle hmem ⊢
      obtain rfl : l = [] := by simpa using hle
      rw [List.mem_singleton.mp hmem]
    have hnil : s'.inFlight = [] := by rw [hflight, hone]; simp
    refine ⟨by rw [hnil]; exact Nat.zero_le 1, fun t ht => ?_, fun hm => ?_⟩
    · rw [hnil] at ht
      cases ht
    · rw [hmounted] at hm
      rw [hshown, if_pos ⟨hm, h.current token hmem⟩, settle_not_loading, hnil]
      simp
  | dispose =>
    obtain rfl := Option.some.inj hs
    exact ⟨h.le_one, h.current, fun hm => by cases hm⟩

/-- **One comparison at a time.** In every run at most one comparison is under way, and the
controller shows exactly then that it loads. So an answer that comes before the controller is
disposed is always shown: the dataset it decodes to, or the failure, with the dataset that was
shown before. -/
theorem comparison_singleFlight {decode : J → Except (Thrown S δ) τ} {code unknownId : S}
    {l : List (GuardedEvent π (Except (Thrown S δ) J))}
    {s' : GuardedState (UiState τ (AppException S δ))}
    (hrun : runSteps (comparisonStep π decode code unknownId) { shown := .initial } l = some s') :
    s'.inFlight.length ≤ 1 ∧
      (s'.mounted = true → (s'.shown.isLoading = true ↔ s'.inFlight ≠ [])) ∧
      ∀ token answer s'', s'.mounted = true →
        comparisonStep π decode code unknownId s' (.answer token answer) = some s'' →
        (∀ dataset, answer.bind decode = .ok dataset → s''.shown = .success dataset token) ∧
          ∀ e, answer.bind decode = .error e →
            s''.shown = .failure (e.toAppException code unknownId) token s'.shown.data := by
  have hstart : OneInFlight ({ shown := .initial } : GuardedState (UiState τ (AppException S δ))) :=
    ⟨Nat.zero_le 1, fun _ h => absurd h List.not_mem_nil, fun _ => by
      simp [UiState.isLoading, UiState.initial]⟩
  have h : OneInFlight s' := runSteps_invariant (fun _ _ _ _ hi hs => hi.step hs) hstart hrun
  refine ⟨h.le_one, h.isLoading, fun token answer s'' hmounted hs => ?_⟩
  obtain ⟨hmem, -, -, -, hshown⟩ := RequestGuard.step_answer hs
  rw [hshown, if_pos ⟨hmounted, h.current token hmem⟩]
  refine ⟨fun dataset hok => ?_, fun e herror => ?_⟩
  · simp [comparisonController, hok]
  · simp [comparisonController, herror]

/-- The second request is not sent, and the answer to the first is shown. -/
theorem comparison_singleFlight_two :
    ∃ s'', comparisonStep ℕ (fun n => .ok n : ℕ → Except (Thrown ℕ Unit) ℕ) 0 1
        ⟨1, [1], true, .loading 1 none⟩ (.answer 1 (.ok 4)) = some s'' ∧
      s''.shown = .success 4 1 := by
  have hrun : runSteps (comparisonStep ℕ (fun n => .ok n : ℕ → Except (Thrown ℕ Unit) ℕ) 0 1)
      { shown := .initial } [.start 2, .start 3] = some ⟨1, [1], true, .loading 1 none⟩ := rfl
  exact ⟨_, rfl, ((comparison_singleFlight hrun).2.2 1 (.ok 4) _ rfl rfl).1 4 rfl⟩

end Controllers

end FinanceIntelligence
