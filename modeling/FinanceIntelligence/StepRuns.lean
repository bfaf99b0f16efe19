import Mathlib.Data.Nat.Notation

/-!
# Runs of a step function

A general layer: a step function on states of any type that takes an action and may
refuse it. `runSteps` takes actions one after the other, `AlongRun` says that something
holds of every step of a run.
-/

namespace FinanceIntelligence

variable {σ α : Type} (step : σ → α → Option σ)

/-- Actions one after the other. -/
def runSteps (s : σ) : List α → Option σ
  | [] => some s
  | a :: l => (step s a).bind fun s' => runSteps s' l

/-- `P` holds of every step that a run takes. -/
def AlongRun (P : σ → α → σ → Prop) (s : σ) : List α → Prop
  | [] => True
  | a :: l => ∀ s', step s a = some s' → P s a s' ∧ AlongRun P s' l

variable {step} {P Q : σ → α → σ → Prop} {I : σ → Prop} {s s' : σ}

theorem runSteps_cons {a : α} {l : List α} (h : runSteps step s (a :: l) = some s') :
    ∃ t, step s a = some t ∧ runSteps step t l = some s' :=
  Option.bind_eq_some_iff.mp h

/-- What holds along a run, at a step that is taken. -/
theorem alongRun_cons_iff {a : α} {l : List α} (h : step s a = some s') :
    AlongRun step P s (a :: l) ↔ P s a s' ∧ AlongRun step P s' l :=
  ⟨fun hrun => hrun s' h, fun hrun t ht => by
    obtain rfl := Option.some.inj (h.symm.trans ht)
    exact hrun⟩

/-- A property of steps that can be decided can be decided along a run. -/
instance AlongRun.instDecidable [∀ s a s', Decidable (P s a s')] :
    ∀ s l, Decidable (AlongRun step P s l)
  | _, [] => .isTrue trivial
  | s, a :: l =>
    match h : step s a with
    | none => .isTrue fun _ ht => nomatch h.symm.trans ht
    | some t =>
      have := AlongRun.instDecidable t l
      decidable_of_iff _ (alongRun_cons_iff h).symm

/-- What holds of every step holds of the steps of a run. -/
theorem AlongRun.of_forall (h : ∀ s a s', step s a = some s' → P s a s') (s : σ) (l : List α) :
    AlongRun step P s l := by
  induction l generalizing s with
  | nil => trivial
  | cons a l ih => exact fun t ht => ⟨h s a t ht, ih t⟩

/-- Two properties of every step. -/
theorem AlongRun.and {l : List α} (hp : AlongRun step P s l) (hq : AlongRun step Q s l) :
    AlongRun step (fun s a s' => P s a s' ∧ Q s a s') s l := by
  induction l generalizing s with
  | nil => trivial
  | cons a l ih =>
    intro t ht
    exact ⟨⟨(hp t ht).1, (hq t ht).1⟩, ih (hp t ht).2 (hq t ht).2⟩

/-- **Invariants.** What holds of the first state and is kept by the steps that meet the condition
holds of the last state of a run whose steps meet it. -/
theorem AlongRun.invariant (hstep : ∀ s a s', I s → step s a = some s' → P s a s' → I s')
    {l : List α} (h : AlongRun step P s l) (hs : I s) (hrun : runSteps step s l = some s') : I s' := by
  induction l generalizing s with
  | nil =>
    cases hrun
    exact hs
  | cons a l ih =>
    obtain ⟨t, ht, hrest⟩ := runSteps_cons hrun
    obtain ⟨hp, hl⟩ := h t ht
    exact ih hl (hstep s a t hs ht hp) hrest

/-- What the steps that meet the condition have, where an invariant holds, they have along a run
whose steps meet it. -/
theorem AlongRun.of_invariant {O : σ → α → σ → Prop}
    (hstep : ∀ s a s', I s → step s a = some s' → O s a s' → P s a s' ∧ I s')
    {l : List α} (h : AlongRun step O s l) (hs : I s) : AlongRun step P s l := by
  induction l generalizing s with
  | nil => trivial
  | cons a l ih =>
    intro t ht
    obtain ⟨ho, hl⟩ := h t ht
    obtain ⟨hp, hi⟩ := hstep s a t hs ht ho
    exact ⟨hp, ih hl hi⟩

/-- Two properties of the steps of a run that agree, step by step, as long as an invariant holds,
which the first of them keeps. -/
theorem AlongRun.iff {O : σ → α → σ → Prop}
    (hstep : ∀ s a s', I s → step s a = some s' → O s a s' →
      (P s a s' ↔ Q s a s') ∧ (P s a s' → I s'))
    {l : List α} (h : AlongRun step O s l) (hs : I s) :
    AlongRun step P s l ↔ AlongRun step Q s l := by
  induction l generalizing s with
  | nil => exact Iff.rfl
  | cons a l ih =>
    refine forall₂_congr fun t ht => ?_
    obtain ⟨ho, hl⟩ := h t ht
    obtain ⟨hpq, hi⟩ := hstep s a t hs ht ho
    constructor
    · rintro ⟨hp, hrest⟩
      exact ⟨hpq.mp hp, (ih hl (hi hp)).mp hrest⟩
    · rintro ⟨hq, hrest⟩
      have hp := hpq.mpr hq
      exact ⟨hp, (ih hl (hi hp)).mpr hrest⟩

/-- A run in two parts. -/
theorem runSteps_append {l l' : List α} :
    runSteps step s (l ++ l') = (runSteps step s l).bind fun t => runSteps step t l' := by
  induction l generalizing s with
  | nil => rfl
  | cons a l ih =>
    change ((step s a).bind fun t => runSteps step t (l ++ l')) =
      ((step s a).bind fun t => runSteps step t l).bind fun t => runSteps step t l'
    rw [Option.bind_assoc]
    exact congrArg _ (funext fun t => ih)

/-- What every step keeps, a run keeps. -/
theorem runSteps_invariant {l : List α} (hstep : ∀ a ∈ l, ∀ s s', I s → step s a = some s' → I s')
    (hs : I s) (hrun : runSteps step s l = some s') : I s' := by
  induction l generalizing s with
  | nil =>
    cases hrun
    exact hs
  | cons a l ih =>
    obtain ⟨t, ht, hrest⟩ := runSteps_cons hrun
    exact ih (fun b hb => hstep b (List.mem_cons_of_mem _ hb))
      (hstep a List.mem_cons_self s t hs ht) hrest

/-- What every step keeps of a state and of the actions so far, a run keeps. -/
theorem runSteps_history {H : List α → σ → Prop}
    (hstep : ∀ l a s s', H l s → step s a = some s' → H (l ++ [a]) s') {l₁ l₂ : List α}
    (hs : H l₁ s) (hrun : runSteps step s l₂ = some s') : H (l₁ ++ l₂) s' := by
  induction l₂ generalizing l₁ s with
  | nil =>
    cases hrun
    rwa [List.append_nil]
  | cons a l ih =>
    obtain ⟨t, ht, hrest⟩ := runSteps_cons hrun
    have h := ih (hstep l₁ a s t hs ht) hrest
    rwa [List.append_assoc] at h

/-! ## What one party sees -/

/-- **A run as one party sees it.** If its own actions do to what it sees what they do to the
whole, and the actions of the others change nothing of it, then what it sees of a run is a run of
its own actions alone. -/
theorem runSteps_view {τ : Type} {step' : τ → α → Option τ} {view : σ → τ} {own : α → Prop}
    [DecidablePred own]
    (hown : ∀ s a s', own a → I s → step s a = some s' → step' (view s) a = some (view s'))
    (hother : ∀ s a s', ¬ own a → I s → step s a = some s' → view s' = view s)
    {l : List α} (hstep : ∀ a ∈ l, ∀ s s', I s → step s a = some s' → I s') (hs : I s)
    (hrun : runSteps step s l = some s') :
    runSteps step' (view s) (l.filter fun a => own a) = some (view s') := by
  induction l generalizing s with
  | nil =>
    cases hrun
    rfl
  | cons a l ih =>
    obtain ⟨t, ht, hrest⟩ := runSteps_cons hrun
    have hl := ih (fun b hb => hstep b (List.mem_cons_of_mem _ hb))
      (hstep a List.mem_cons_self s t hs ht) hrest
    by_cases ha : own a
    · rw [List.filter_cons, if_pos (decide_eq_true ha)]
      change (step' (view s) a).bind _ = _
      rw [hown s a t ha hs ht]
      exact hl
    · rw [List.filter_cons, if_neg (by simpa using ha), ← hother s a t ha hs ht]
      exact hl

end FinanceIntelligence
