import FinanceIntelligence.StepRuns
import Mathlib.Data.List.Nodup

/-!
# The latest request wins

A general layer: something shows the answer to a request that it has sent. It may send another
request while it waits, and answers come in any order. Every request has a number of its own, and
an answer is dropped unless it is that to the latest number.

* `RequestGuard.latest_wins` — what is shown is the answer to **the latest request**, or that this
  is under way.
-/

namespace FinanceIntelligence

/-- What is shown when a request of a kind `π` is sent, and when it is answered with `ρ`. -/
structure RequestGuard (π ρ σ : Type) where
  /-- the request with a number is sent -/
  begin : π → ℕ → σ → σ
  /-- it is answered -/
  settle : ℕ → ρ → σ → σ

/-- What is shown, and the requests that are under way. -/
structure GuardedState (σ : Type) where
  /-- the latest number -/
  current : ℕ := 0
  /-- the numbers of the requests without an answer -/
  inFlight : List ℕ := []
  /-- something is shown at all -/
  mounted : Bool := true
  /-- what is shown -/
  shown : σ

/-- What happens. -/
inductive GuardedEvent (π ρ : Type) where
  /-- a request is sent -/
  | start (p : π)
  /-- a request is answered -/
  | answer (token : ℕ) (r : ρ)
  /-- nothing is shown any more -/
  | dispose

namespace RequestGuard

variable {π ρ σ : Type} (G : RequestGuard π ρ σ)

/-- One event. -/
def step (s : GuardedState σ) : GuardedEvent π ρ → Option (GuardedState σ)
  | .start p =>
    if s.mounted then
      some { s with
        current := s.current + 1
        inFlight := s.inFlight ++ [s.current + 1]
        shown := G.begin p (s.current + 1) s.shown }
    else none
  | .answer token r =>
    if token ∈ s.inFlight then
      some { s with
        inFlight := s.inFlight.erase token
        shown := if s.mounted ∧ token = s.current then G.settle token r s.shown else s.shown }
    else none
  | .dispose => some { s with mounted := false }

/-- The numbers of requests. -/
structure Inv (s : GuardedState σ) : Prop where
  /-- each is sent once -/
  nodup : s.inFlight.Nodup
  /-- none is later than the latest -/
  le : ∀ token ∈ s.inFlight, token ≤ s.current

variable {G} {s s' : GuardedState σ}

theorem Inv.start (shown : σ) : Inv ({ shown } : GuardedState σ) where
  nodup := .nil
  le _ h := by cases h

theorem Inv.start_next (h : Inv s) (shown : σ) :
    Inv { s with
      current := s.current + 1
      inFlight := s.inFlight ++ [s.current + 1]
      shown } := by
  refine ⟨?_, fun token htoken => ?_⟩
  · refine List.nodup_append.mpr ⟨h.nodup, List.nodup_singleton _, fun a ha b hb hab => ?_⟩
    obtain rfl := List.mem_singleton.mp hb
    have := h.le a ha
    omega
  · rcases List.mem_append.mp htoken with hold | hnew
    · exact Nat.le_succ_of_le (h.le token hold)
    · exact Nat.le_of_eq (List.mem_singleton.mp hnew)

theorem Inv.answer (h : Inv s) (token : ℕ) (shown : σ) :
    Inv { s with inFlight := s.inFlight.erase token, shown } :=
  ⟨h.nodup.erase _, fun t ht => h.le t (List.mem_of_mem_erase ht)⟩

/-- **An event keeps the numbers apart.** -/
theorem Inv.step (h : Inv s) {e : GuardedEvent π ρ} (hs : G.step s e = some s') : Inv s' := by
  cases e with
  | start p =>
    simp only [RequestGuard.step] at hs
    split at hs
    next =>
      obtain rfl := Option.some.inj hs
      exact h.start_next _
    next => cases hs
  | answer token r =>
    simp only [RequestGuard.step] at hs
    split at hs
    next =>
      obtain rfl := Option.some.inj hs
      exact h.answer _ _
    next => cases hs
  | dispose =>
    obtain rfl := Option.some.inj hs
    exact ⟨h.nodup, h.le⟩

theorem Inv.run (h : Inv s) {l : List (GuardedEvent π ρ)}
    (hrun : runSteps G.step s l = some s') : Inv s' :=
  runSteps_invariant (fun _ _ _ _ hi hs => hi.step hs) h hrun

/-- The events are answers only. -/
def AnswersOnly (l : List (GuardedEvent π ρ)) : Prop := ∀ e ∈ l, ∃ token r, e = .answer token r

theorem step_answer {token : ℕ} {r : ρ} (hs : G.step s (.answer token r) = some s') :
    token ∈ s.inFlight ∧ s'.current = s.current ∧ s'.mounted = s.mounted ∧
      s'.inFlight = s.inFlight.erase token ∧ s'.shown =
        if s.mounted ∧ token = s.current then G.settle token r s.shown else s.shown := by
  simp only [RequestGuard.step] at hs
  split at hs
  next hmem =>
    obtain rfl := Option.some.inj hs
    exact ⟨hmem, rfl, rfl, rfl, rfl⟩
  next => cases hs

/-- Once the latest request is answered, other answers change nothing. -/
theorem run_answered {l : List (GuardedEvent π ρ)} (hl : AnswersOnly l)
    (hcurrent : s.current ∉ s.inFlight) (hrun : runSteps G.step s l = some s') :
    s'.current = s.current ∧ s'.mounted = s.mounted ∧ s.current ∉ s'.inFlight ∧
      s'.shown = s.shown := by
  refine runSteps_invariant (I := fun t => t.current = s.current ∧ t.mounted = s.mounted ∧
    s.current ∉ t.inFlight ∧ t.shown = s.shown) (fun e he t t' hi hs => ?_)
    ⟨rfl, rfl, hcurrent, rfl⟩ hrun
  obtain ⟨hcur, hmounted, hnot, hshown⟩ := hi
  obtain ⟨token, r, rfl⟩ := hl e he
  obtain ⟨hmem, hcur', hmounted', hflight, hshown'⟩ := step_answer hs
  refine ⟨hcur'.trans hcur, hmounted'.trans hmounted, fun h => hnot ?_, ?_⟩
  · rw [hflight] at h
    exact List.mem_of_mem_erase h
  · rw [hshown', if_neg, hshown]
    rintro ⟨-, rfl⟩
    exact hnot (hcur ▸ hmem)

/-- **Only the latest request counts.** When only answers come, what is shown is what was shown
when the latest request was sent, and then the answer to this request. -/
theorem run_answers (h : Inv s) (hmounted : s.mounted = true) (hcurrent : s.current ∈ s.inFlight)
    {l : List (GuardedEvent π ρ)} (hl : AnswersOnly l) (hrun : runSteps G.step s l = some s') :
    s'.current = s.current ∧ s'.mounted = true ∧
      (s.current ∈ s'.inFlight ∧ s'.shown = s.shown ∨
        s.current ∉ s'.inFlight ∧ ∃ r, .answer s.current r ∈ l ∧
          s'.shown = G.settle s.current r s.shown) := by
  induction l generalizing s with
  | nil =>
    cases hrun
    exact ⟨rfl, hmounted, .inl ⟨hcurrent, rfl⟩⟩
  | cons e l ih =>
    obtain ⟨t, hstep, hrest⟩ := runSteps_cons hrun
    obtain ⟨token, r, rfl⟩ := hl e List.mem_cons_self
    have hl' : AnswersOnly l := fun e he => hl e (List.mem_cons_of_mem _ he)
    obtain ⟨-, hcur, hmount, hflight, hshown⟩ := step_answer hstep
    rw [hmounted] at hmount hshown
    by_cases heq : token = s.current
    · subst heq
      rw [if_pos ⟨rfl, rfl⟩] at hshown
      have hnot : t.current ∉ t.inFlight := by
        rw [hcur, hflight]
        exact h.nodup.not_mem_erase
      obtain ⟨hcur', hmount', hnot', hshown'⟩ := run_answered hl' hnot hrest
      rw [hcur] at hcur' hnot'
      exact ⟨hcur', hmount'.trans hmount, .inr ⟨hnot', r, List.mem_cons_self,
        hshown'.trans hshown⟩⟩
    · rw [if_neg fun h => heq h.2] at hshown
      have hmem : t.current ∈ t.inFlight := by
        rw [hcur, hflight]
        exact (List.mem_erase_of_ne (Ne.symm heq)).mpr hcurrent
      obtain ⟨hcur', hmount', hwhich⟩ := ih (h.step hstep) hmount hmem hl' hrest
      rw [hcur, hshown] at hwhich
      refine ⟨hcur'.trans hcur, hmount', ?_⟩
      rcases hwhich with hflight | ⟨hnot, r', hr', hshown'⟩
      · exact .inl hflight
      · exact .inr ⟨hnot, r', List.mem_cons_of_mem _ hr', hshown'⟩

/-- **The latest request wins.** After a request is sent, and as long as no other is sent, what is
shown is this request under way or its answer: no answer to another request is ever shown in its
place, in whatever order the answers come. -/
theorem latest_wins {shown : σ} {l₁ l₂ : List (GuardedEvent π ρ)} {p : π} (hl : AnswersOnly l₂)
    (hrun : runSteps G.step { shown } (l₁ ++ .start p :: l₂) = some s') :
    ∃ s₁, runSteps G.step { shown } l₁ = some s₁ ∧ s'.current = s₁.current + 1 ∧
      s'.mounted = true ∧
      (s'.current ∈ s'.inFlight ∧ s'.shown = G.begin p s'.current s₁.shown ∨
        s'.current ∉ s'.inFlight ∧ ∃ r, .answer s'.current r ∈ l₂ ∧
          s'.shown = G.settle s'.current r (G.begin p s'.current s₁.shown)) := by
  rw [runSteps_append] at hrun
  obtain ⟨s₁, h₁, hrun⟩ := Option.bind_eq_some_iff.mp hrun
  obtain ⟨s₂, h₂, hrun⟩ := runSteps_cons hrun
  have hinv₂ : Inv s₂ := ((Inv.start shown).run h₁).step h₂
  simp only [RequestGuard.step] at h₂
  split at h₂
  next hmounted =>
    obtain rfl := Option.some.inj h₂
    obtain ⟨hcur, hmount, hwhich⟩ := run_answers hinv₂ hmounted (by simp) hl hrun
    rw [← hcur] at hwhich
    refine ⟨s₁, h₁, hcur, hmount, ?_⟩
    rw [hcur] at hwhich ⊢
    exact hwhich
  next => cases h₂

/-- A run, in which a request has been sent and which is not disposed, up to its latest request and
from it. -/
theorem exists_latest_start {l : List (GuardedEvent π ρ)} (hstart : ∃ p, .start p ∈ l)
    (hdispose : .dispose ∉ l) : ∃ l₁ p l₂, l = l₁ ++ .start p :: l₂ ∧ AnswersOnly l₂ := by
  induction l with
  | nil =>
    obtain ⟨p, hp⟩ := hstart
    cases hp
  | cons e l ih =>
    rw [List.mem_cons, not_or] at hdispose
    by_cases hrest : ∃ p, .start p ∈ l
    · obtain ⟨l₁, p, l₂, rfl, hl₂⟩ := ih hrest hdispose.2
      exact ⟨e :: l₁, p, l₂, rfl, hl₂⟩
    · obtain ⟨p, hp⟩ := hstart
      rcases List.mem_cons.mp hp with rfl | hp
      · refine ⟨[], p, l, rfl, fun e he => ?_⟩
        cases e with
        | start q => exact absurd ⟨q, he⟩ hrest
        | answer token r => exact ⟨token, r, rfl⟩
        | dispose => exact absurd he hdispose.2
      · exact absurd ⟨p, hp⟩ hrest

/-- **At rest** the latest request, after which only answers come, has been answered, and its
answer is shown. -/
theorem latest_at_rest {shown : σ} {l : List (GuardedEvent π ρ)} (hstart : ∃ p, .start p ∈ l)
    (hdispose : .dispose ∉ l) (hrun : runSteps G.step { shown } l = some s')
    (hrest : s'.inFlight = []) :
    ∃ l₁ p l₂ s₁ r, l = l₁ ++ .start p :: l₂ ∧ AnswersOnly l₂ ∧
      runSteps G.step { shown } l₁ = some s₁ ∧ .answer s'.current r ∈ l₂ ∧
      s'.shown = G.settle s'.current r (G.begin p s'.current s₁.shown) := by
  obtain ⟨l₁, p, l₂, rfl, hl₂⟩ := exists_latest_start hstart hdispose
  obtain ⟨s₁, h₁, hcur, -, hwhich⟩ := latest_wins hl₂ hrun
  rcases hwhich with ⟨hmem, -⟩ | ⟨-, r, hr, hshown⟩
  · rw [hrest] at hmem
    cases hmem
  · exact ⟨l₁, p, l₂, s₁, r, rfl, hl₂, h₁, hr, hshown⟩

end RequestGuard

end FinanceIntelligence
