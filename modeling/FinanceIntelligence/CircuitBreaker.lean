import FinanceIntelligence.StepRuns
import Mathlib.Data.Rat.Defs
import Mathlib.Algebra.Order.Ring.Rat
import Mathlib.Algebra.Order.Group.Defs
import Mathlib.Tactic.Linarith

/-!
# The circuit breaker of a model provider

`ProviderCircuitBreaker` (orchestration/circuit_breaker.py). Failures open the circuit, which is
closed to calls until a cooldown has passed. Then it is half open: a number of probes is admitted,
and what becomes of them closes or opens it.

* `shut_until_cooldown` — an open circuit admits no call before its cooldown has passed.
* `recovers_iff` — a circuit can admit a call later unless it is half open and its probes are
  used up; nothing but the record of a success or of a transient failure frees them.
-/

namespace FinanceIntelligence

/-- `CircuitState`. -/
inductive CircuitState where
  | closed
  /-- `OPEN` -/
  | opened
  | halfOpen
deriving DecidableEq

/-- The parameters of a circuit breaker. -/
structure BreakerConfig where
  failureThreshold : ℤ := 5
  cooldownSeconds : ℚ := 60
  halfOpenMaxProbes : ℤ := 2

/-- `ProviderCircuitBreaker`, with times as exact numbers of seconds. -/
structure ProviderCircuitBreaker where
  state : CircuitState := .closed
  consecutiveFailures : ℤ := 0
  lastFailureTime : ℚ := 0
  halfOpenProbes : ℤ := 0
deriving DecidableEq

namespace ProviderCircuitBreaker

variable (cfg : BreakerConfig) (now : ℚ) (b : ProviderCircuitBreaker)

/-- The first half of `check_allow_execution`: an open circuit whose cooldown has passed is half
open; `none` while the cooldown is active. -/
def afterCooldown : Option ProviderCircuitBreaker :=
  match b.state with
  | .opened =>
    if cfg.cooldownSeconds ≤ now - b.lastFailureTime then
      some { b with state := .halfOpen, halfOpenProbes := 0 }
    else none
  | .closed | .halfOpen => some b

/-- The second half: a half open circuit counts its probes. -/
def admitProbe : ProviderCircuitBreaker × Bool :=
  match b.state with
  | .halfOpen =>
    if cfg.halfOpenMaxProbes ≤ b.halfOpenProbes then (b, false)
    else ({ b with halfOpenProbes := b.halfOpenProbes + 1 }, true)
  | .closed | .opened => (b, true)

/-- `check_allow_execution`: the breaker afterwards, and whether the call is admitted. -/
def checkAllowExecution : ProviderCircuitBreaker × Bool :=
  match b.afterCooldown cfg now with
  | none => (b, false)
  | some b => b.admitProbe cfg

/-- `record_success`. -/
def recordSuccess : ProviderCircuitBreaker :=
  { b with consecutiveFailures := 0, halfOpenProbes := 0, state := .closed }

/-- The failure trips the breaker. -/
def trips : Bool :=
  b.state == .halfOpen || decide (cfg.failureThreshold ≤ b.consecutiveFailures + 1)

/-- `record_failure`; a failure that is not transient is not counted. -/
def recordFailure (isTransient : Bool) : ProviderCircuitBreaker :=
  if isTransient then
    { b with
      consecutiveFailures := b.consecutiveFailures + 1
      lastFailureTime := now
      state := if b.trips cfg then .opened else b.state }
  else b

end ProviderCircuitBreaker

/-! ## Sequences of calls -/

/-- A call of the breaker. -/
inductive BreakerCall where
  /-- `check_allow_execution` -/
  | check
  /-- `record_success` -/
  | success
  /-- `record_failure` -/
  | failure (isTransient : Bool)
deriving DecidableEq

/-- The breaker between two calls. -/
structure BreakerSys where
  breaker : ProviderCircuitBreaker := {}
  /-- the time of the last call -/
  now : ℚ
  /-- the admitted calls that nothing has been recorded about -/
  unrecorded : ℕ := 0

/-- A call at a time that is not before the last one. -/
def BreakerSys.step (cfg : BreakerConfig) (s : BreakerSys) (a : ℚ × BreakerCall) :
    Option BreakerSys :=
  if a.1 < s.now then none
  else
    match a.2 with
    | .check =>
      let (b, admitted) := s.breaker.checkAllowExecution cfg a.1
      some ⟨b, a.1, if admitted then s.unrecorded + 1 else s.unrecorded⟩
    | .success => some ⟨s.breaker.recordSuccess, a.1, s.unrecorded - 1⟩
    | .failure isTransient =>
      some ⟨s.breaker.recordFailure cfg a.1 isTransient, a.1, s.unrecorded - 1⟩

/-- An admitted call is followed by one record at most. -/
def RecordsOnce (s : BreakerSys) (a : ℚ × BreakerCall) (_ : BreakerSys) : Prop :=
  a.2 ≠ .check → 0 < s.unrecorded

instance : ∀ s a s', Decidable (RecordsOnce s a s') := fun s a _ =>
  inferInstanceAs (Decidable (a.2 ≠ .check → 0 < s.unrecorded))

/-- A call is admitted later if nothing else happens until then. -/
def BreakerSys.Recovers (cfg : BreakerConfig) (s : BreakerSys) : Prop :=
  ∃ t, s.now ≤ t ∧ (s.breaker.checkAllowExecution cfg t).2 = true

/-- No call is admitted before a time unless a success is recorded first. -/
def BreakerSys.ShutUntil (cfg : BreakerConfig) (s : BreakerSys) (until_ : ℚ) : Prop :=
  ∀ calls s', runSteps (BreakerSys.step cfg) s calls = some s' → (∀ a ∈ calls, a.2 ≠ .success) →
    ∀ t, s'.now ≤ t → (s'.breaker.checkAllowExecution cfg t).2 = true → until_ ≤ t

/-- A failure that leaves the circuit open keeps it shut for the cooldown. -/
def FailureShuts (cfg : BreakerConfig) (_ : BreakerSys) (a : ℚ × BreakerCall) (s' : BreakerSys) :
    Prop :=
  a.2 = .failure true → s'.breaker.state = .opened → s'.ShutUntil cfg (a.1 + cfg.cooldownSeconds)

/-- **A probe is left**: the call does not take the last probe of a half open circuit, and a
circuit that is opened will have one. -/
def LeavesProbe (cfg : BreakerConfig) (s : BreakerSys) (a : ℚ × BreakerCall) (_ : BreakerSys) :
    Prop :=
  match a.2 with
  | .check =>
    match s.breaker.state with
    | .closed => True
    | .opened => cfg.cooldownSeconds ≤ a.1 - s.breaker.lastFailureTime → 1 < cfg.halfOpenMaxProbes
    | .halfOpen => s.breaker.halfOpenProbes + 1 < cfg.halfOpenMaxProbes
  | .success => True
  | .failure isTransient => isTransient = true → s.breaker.trips cfg = true →
      0 < cfg.halfOpenMaxProbes

namespace BreakerSys

variable {cfg : BreakerConfig} {s s' : BreakerSys} {a : ℚ × BreakerCall} {t : ℚ}

/-- What a call does: time goes on, and the breaker changes as the call says. -/
theorem step_eq_some (h : step cfg s a = some s') : s.now ≤ a.1 ∧ s'.now = a.1 ∧
    s'.breaker = match a.2 with
      | .check => (s.breaker.checkAllowExecution cfg a.1).1
      | .success => s.breaker.recordSuccess
      | .failure isTransient => s.breaker.recordFailure cfg a.1 isTransient := by
  rw [step] at h
  split at h
  · cases h
  · rename_i hle
    refine ⟨not_lt.mp hle, ?_⟩
    obtain ⟨at', call⟩ := a
    cases call with
    | check | success | failure =>
      cases h
      exact ⟨rfl, rfl⟩

/-! ## Open circuits -/

/-- **A call that an open circuit admits** comes after the cooldown. -/
theorem cooldown_le_of_admitted {b : ProviderCircuitBreaker} (hstate : b.state = .opened)
    (h : (b.checkAllowExecution cfg t).2 = true) : b.lastFailureTime + cfg.cooldownSeconds ≤ t := by
  by_cases hc : cfg.cooldownSeconds ≤ t - b.lastFailureTime
  · linarith
  · simp [ProviderCircuitBreaker.checkAllowExecution, ProviderCircuitBreaker.afterCooldown, hstate,
      hc] at h

/-- A check before the cooldown has passed leaves an open circuit as it is. -/
theorem check_eq_self {b : ProviderCircuitBreaker} (hstate : b.state = .opened)
    (h : ¬ cfg.cooldownSeconds ≤ t - b.lastFailureTime) :
    b.checkAllowExecution cfg t = (b, false) := by
  simp only [ProviderCircuitBreaker.checkAllowExecution, ProviderCircuitBreaker.afterCooldown,
    hstate, if_neg h]

/-- The circuit is open since a failure at the time `t₀`, or the cooldown has passed. -/
structure OpenSince (cfg : BreakerConfig) (t₀ : ℚ) (s : BreakerSys) : Prop where
  /-- the failure is in the past -/
  past : t₀ ≤ s.now
  /-- until the cooldown has passed nothing but failures happens -/
  open_ : s.breaker.state = .opened ∧ t₀ ≤ s.breaker.lastFailureTime ∨
    t₀ + cfg.cooldownSeconds ≤ s.now

/-- **A circuit stays open** through every call but a success until its cooldown has passed. -/
theorem OpenSince.step {t₀ : ℚ} (h : OpenSince cfg t₀ s) (hstep : step cfg s a = some s')
    (ha : a.2 ≠ .success) : OpenSince cfg t₀ s' := by
  obtain ⟨hle, hnow, hbreaker⟩ := step_eq_some hstep
  have hpast : t₀ ≤ s'.now := by
    rw [hnow]
    exact h.past.trans hle
  refine ⟨hpast, ?_⟩
  rcases h.open_ with ⟨hstate, hlast⟩ | hcooled
  · obtain ⟨at', call⟩ := a
    cases call with
    | check =>
      by_cases hc : cfg.cooldownSeconds ≤ at' - s.breaker.lastFailureTime
      · right
        rw [hnow]
        simp only
        linarith
      · left
        rw [hbreaker]
        simp only [check_eq_self hstate hc]
        exact ⟨hstate, hlast⟩
    | success => exact absurd rfl ha
    | failure isTransient =>
      left
      rw [hbreaker]
      cases isTransient with
      | false => exact ⟨hstate, hlast⟩
      | true =>
        simp only [ProviderCircuitBreaker.recordFailure, if_true, hstate, ite_self, true_and]
        exact h.past.trans hle
  · right
    rw [hnow]
    exact hcooled.trans hle

/-- **Shut for the cooldown**: after a failure that leaves the circuit open no call is admitted
before the cooldown has passed, unless a success is recorded. -/
theorem shut_until_cooldown {t₀ : ℚ} (h : OpenSince cfg t₀ s) :
    s.ShutUntil cfg (t₀ + cfg.cooldownSeconds) := by
  intro calls s' hrun hcalls t ht hadmitted
  have hopen : OpenSince cfg t₀ s' := by
    induction calls generalizing s with
    | nil =>
      cases hrun
      exact h
    | cons a calls ih =>
      obtain ⟨u, hu, hrest⟩ := runSteps_cons hrun
      exact ih (h.step hu (hcalls a List.mem_cons_self)) hrest
        fun b hb => hcalls b (List.mem_cons_of_mem _ hb)
  rcases hopen.open_ with ⟨hstate, hlast⟩ | hcooled
  · have := cooldown_le_of_admitted hstate hadmitted
    linarith
  · exact hcooled.trans ht

theorem failureShuts (hstep : step cfg s a = some s') : FailureShuts cfg s a s' := by
  intro ha hstate
  obtain ⟨hle, hnow, hbreaker⟩ := step_eq_some hstep
  refine shut_until_cooldown ⟨hnow.ge, .inl ⟨hstate, ?_⟩⟩
  rw [hbreaker, ha]
  exact le_rfl

/-! ## Half open circuits -/

/-- **When a call is admitted later**: the circuit is closed, or a probe is left or will be. -/
theorem recovers_iff : s.Recovers cfg ↔
    match s.breaker.state with
    | .closed => True
    | .opened => 0 < cfg.halfOpenMaxProbes
    | .halfOpen => s.breaker.halfOpenProbes < cfg.halfOpenMaxProbes := by
  cases hstate : s.breaker.state with
  | closed =>
    simp only [iff_true]
    refine ⟨s.now, le_rfl, ?_⟩
    simp [ProviderCircuitBreaker.checkAllowExecution, ProviderCircuitBreaker.afterCooldown,
      ProviderCircuitBreaker.admitProbe, hstate]
  | opened =>
    constructor
    · rintro ⟨t, -, h⟩
      by_contra hmax
      simp only [ProviderCircuitBreaker.checkAllowExecution, ProviderCircuitBreaker.afterCooldown,
        hstate] at h
      split at h
      · cases h
      · rename_i b hb
        split at hb
        · obtain rfl := Option.some.inj hb
          simp [ProviderCircuitBreaker.admitProbe, not_lt.mp hmax] at h
        · cases hb
    · intro (hmax : 0 < cfg.halfOpenMaxProbes)
      -- the cooldown has passed at the later of the two times
      refine ⟨max s.now (s.breaker.lastFailureTime + cfg.cooldownSeconds), le_max_left _ _, ?_⟩
      have hc : cfg.cooldownSeconds ≤
          max s.now (s.breaker.lastFailureTime + cfg.cooldownSeconds) -
            s.breaker.lastFailureTime := by
        have := le_max_right s.now (s.breaker.lastFailureTime + cfg.cooldownSeconds)
        linarith
      simp [ProviderCircuitBreaker.checkAllowExecution, ProviderCircuitBreaker.afterCooldown,
        ProviderCircuitBreaker.admitProbe, hstate, hc, not_le.mpr hmax]
  | halfOpen =>
    simp only [Recovers, ProviderCircuitBreaker.checkAllowExecution,
      ProviderCircuitBreaker.afterCooldown, ProviderCircuitBreaker.admitProbe, hstate]
    constructor
    · rintro ⟨t, -, h⟩
      by_contra hmax
      simp [not_lt.mp hmax] at h
    · intro (hmax : s.breaker.halfOpenProbes < cfg.halfOpenMaxProbes)
      exact ⟨s.now, le_rfl, by simp [not_le.mpr hmax]⟩

/-- **One call**: a circuit that recovers still does exactly if the call leaves a probe. -/
theorem recovers_step_iff (h : s.Recovers cfg) (hstep : step cfg s a = some s') :
    s'.Recovers cfg ↔ LeavesProbe cfg s a s' := by
  obtain ⟨-, -, hbreaker⟩ := step_eq_some hstep
  rw [recovers_iff] at h ⊢
  rw [hbreaker, LeavesProbe]
  obtain ⟨t, call⟩ := a
  cases call with
  | check =>
    cases hstate : s.breaker.state with
    | closed =>
      simp [ProviderCircuitBreaker.checkAllowExecution, ProviderCircuitBreaker.afterCooldown,
        ProviderCircuitBreaker.admitProbe, hstate]
    | opened =>
      simp only [hstate] at h
      by_cases hc : cfg.cooldownSeconds ≤ t - s.breaker.lastFailureTime
      · simp [ProviderCircuitBreaker.checkAllowExecution, ProviderCircuitBreaker.afterCooldown,
          ProviderCircuitBreaker.admitProbe, hstate, hc, not_le.mpr h]
      · simp [check_eq_self hstate hc, hstate, hc, h]
    | halfOpen =>
      simp only [hstate] at h
      simp [ProviderCircuitBreaker.checkAllowExecution, ProviderCircuitBreaker.afterCooldown,
        ProviderCircuitBreaker.admitProbe, hstate, not_le.mpr h]
  | success => simp [ProviderCircuitBreaker.recordSuccess]
  | failure isTransient =>
    cases isTransient with
    | false => simpa [ProviderCircuitBreaker.recordFailure] using h
    | true =>
      by_cases htrips : s.breaker.trips cfg = true
      · simp [ProviderCircuitBreaker.recordFailure, htrips]
      · -- the circuit is not half open, and stays as it is
        have hne : s.breaker.state ≠ .halfOpen := by
          intro hstate
          exact htrips (by simp [ProviderCircuitBreaker.trips, hstate])
        cases hstate : s.breaker.state with
        | closed => simp [ProviderCircuitBreaker.recordFailure, htrips, hstate]
        | opened =>
          rw [hstate] at h
          simp [ProviderCircuitBreaker.recordFailure, htrips, hstate, h]
        | halfOpen => exact absurd hstate hne

end BreakerSys

/-- A new breaker. -/
def newBreaker (t₀ : ℚ) : BreakerSys where
  now := t₀

/-- What the calls of a sequence have to leave: a circuit that admits a call later, and that is
shut for its cooldown after a failure that opens it. -/
def BreakerLaw (cfg : BreakerConfig) (s : BreakerSys) (a : ℚ × BreakerCall) (s' : BreakerSys) :
    Prop :=
  s'.Recovers cfg ∧ FailureShuts cfg s a s'

/-- **A provider is not locked out** by a sequence of calls exactly if none of them takes the last
probe of a half open circuit. -/
theorem circuitBreaker_recovers_iff (cfg : BreakerConfig) (t₀ : ℚ)
    (calls : List (ℚ × BreakerCall)) :
    AlongRun (BreakerSys.step cfg) (BreakerLaw cfg) (newBreaker t₀) calls ↔
      AlongRun (BreakerSys.step cfg) (LeavesProbe cfg) (newBreaker t₀) calls := by
  have hstart : (newBreaker t₀).Recovers cfg := BreakerSys.recovers_iff.mpr trivial
  refine AlongRun.iff (fun s a s' h hstep _ => ?_)
    (AlongRun.of_forall (fun _ _ _ _ => trivial) _ calls : AlongRun _ (fun _ _ _ => True) _ _)
    hstart
  have hiff := BreakerSys.recovers_step_iff h hstep
  exact ⟨⟨fun hlaw => hiff.mp hlaw.1,
    fun hleaves => ⟨hiff.mpr hleaves, BreakerSys.failureShuts hstep⟩⟩, fun hlaw => hlaw.1⟩

/-- Five failures, and after the cooldown two probes that fail for good. -/
def lockoutCalls : List (ℚ × BreakerCall) :=
  (List.replicate 5 [(0, .check), (0, .failure true)]).flatten ++
    [(60, .check), (60, .failure false), (61, .check), (61, .failure false)]

/-- A provider can be locked out although every admitted call is recorded. -/
theorem circuitBreaker_notRecovers : ¬ ∀ (cfg : BreakerConfig) (t₀ : ℚ)
    (calls : List (ℚ × BreakerCall)),
    AlongRun (BreakerSys.step cfg) RecordsOnce (newBreaker t₀) calls →
      AlongRun (BreakerSys.step cfg) (BreakerLaw cfg) (newBreaker t₀) calls := by
  intro h
  have hrun : (runSteps (BreakerSys.step {}) (newBreaker 0) lockoutCalls).map (·.breaker) =
      some ⟨.halfOpen, 5, 0, 2⟩ := by decide +kernel
  obtain ⟨s, hs, hbreaker⟩ := Option.map_eq_some_iff.mp hrun
  have hrecords : AlongRun (BreakerSys.step {}) RecordsOnce (newBreaker 0) lockoutCalls := by
    decide +kernel
  have hrecovers : s.Recovers {} :=
    AlongRun.invariant (fun _ _ _ _ _ hlaw => hlaw.1) (h {} 0 lockoutCalls hrecords)
      (BreakerSys.recovers_iff.mpr trivial) hs
  rw [BreakerSys.recovers_iff, hbreaker] at hrecovers
  exact absurd hrecovers (by decide)

end FinanceIntelligence
