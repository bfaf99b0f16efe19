import Mathlib.Logic.Basic

/-!
# Functions that may raise

A general layer: how a computation in `Except` can have succeeded. A proof about a
function that raises takes its steps apart with these rules, one step at a time.
-/

namespace FinanceIntelligence

variable {α β ε δ : Type}

/-- A bind that succeeds. -/
theorem exceptBind_eq_ok {x : Except ε α} {f : α → Except ε β} {b : β} :
    (x >>= f) = .ok b ↔ ∃ a, x = .ok a ∧ f a = .ok b := by
  cases x <;> simp [bind, Except.bind]

/-- A bind that raises. -/
theorem exceptBind_eq_error {x : Except ε α} {f : α → Except ε β} {e : ε} :
    (x >>= f) = .error e ↔ x = .error e ∨ ∃ a, x = .ok a ∧ f a = .error e := by
  cases x <;> simp [bind, Except.bind]

/-- A success under another name for the exception. -/
theorem exceptMapError_eq_ok {x : Except ε α} {f : ε → δ} {a : α} :
    x.mapError f = .ok a ↔ x = .ok a := by
  cases x with
  | ok b =>
    change Except.ok b = Except.ok a ↔ _
    rw [Except.ok.injEq, Except.ok.injEq]
  | error e =>
    change Except.error (f e) = Except.ok a ↔ _
    constructor <;> rintro ⟨⟩

/-- A success of a changed value. -/
theorem exceptMap_eq_ok {x : Except ε α} {f : α → β} {b : β} :
    x.map f = .ok b ↔ ∃ a, x = .ok a ∧ f a = b := by
  cases x <;> simp [Except.map]

/-- A success has a value. -/
theorem exists_of_isOk {x : Except ε α} (h : x.isOk = true) : ∃ a, x = .ok a := by
  cases x with
  | ok a => exact ⟨a, rfl⟩
  | error e => cases h

/-! ## Loops -/

section Loops

variable {σ : Type} {step : σ → α → Except ε σ} {pre : σ → α → Prop} {I : σ → Prop} {s t : σ}

/-- What an action needs holds before every action of a loop. -/
def Admits (step : σ → α → Except ε σ) (pre : σ → α → Prop) : σ → List α → Prop
  | _, [] => True
  | s, a :: l => pre s a ∧ ∀ s', step s a = .ok s' → Admits step pre s' l

/-- A loop that comes to its end takes a first step. -/
theorem foldlM_cons_eq_ok {a : α} {l : List α} :
    (a :: l).foldlM step s = .ok t ↔ ∃ s', step s a = .ok s' ∧ l.foldlM step s' = .ok t := by
  rw [List.foldlM_cons, exceptBind_eq_ok]

/-- **A loop comes to its end** exactly if every action has what it needs, in the state
that it finds. -/
theorem foldlM_isOk_iff (hstep : ∀ s a, (∃ s', step s a = .ok s') ↔ pre s a) {l : List α} :
    (∃ t, l.foldlM step s = .ok t) ↔ Admits step pre s l := by
  induction l generalizing s with
  | nil => exact iff_of_true ⟨s, rfl⟩ trivial
  | cons a l ih =>
    simp only [foldlM_cons_eq_ok, Admits, ← hstep]
    constructor
    · rintro ⟨t, s', hs', ht⟩
      refine ⟨⟨s', hs'⟩, fun r hr => ?_⟩
      obtain rfl := Except.ok.inj (hs'.symm.trans hr)
      exact ih.mp ⟨t, ht⟩
    · rintro ⟨⟨s', hs'⟩, hrest⟩
      obtain ⟨t, ht⟩ := ih.mpr (hrest s' hs')
      exact ⟨t, s', hs', ht⟩

/-- A loop whose actions need nothing of the state. -/
theorem foldlM_isOk_iff_forall {P : α → Prop} (hstep : ∀ s a, (∃ s', step s a = .ok s') ↔ P a)
    {l : List α} : (∃ t, l.foldlM step s = .ok t) ↔ ∀ a ∈ l, P a := by
  rw [foldlM_isOk_iff hstep]
  induction l generalizing s with
  | nil => exact iff_of_true trivial nofun
  | cons a l ih =>
    simp only [Admits, List.forall_mem_cons]
    refine and_congr_right fun ha => ?_
    obtain ⟨s', hs'⟩ := (hstep s a).mpr ha
    exact ⟨fun h => ih.mp (h s' hs'), fun h r _ => ih.mpr h⟩

/-- **Invariants of loops.** -/
theorem foldlM_invariant {l : List α} (hstep : ∀ s, ∀ a ∈ l, ∀ s', I s → step s a = .ok s' → I s')
    (hs : I s) (h : l.foldlM step s = .ok t) : I t := by
  induction l generalizing s with
  | nil =>
    cases h
    exact hs
  | cons a l ih =>
    obtain ⟨s', hs', hrest⟩ := foldlM_cons_eq_ok.mp h
    have hi := hstep s a (List.mem_cons_self ..) s' hs hs'
    exact ih (fun s b hb => hstep s b (List.mem_cons_of_mem _ hb)) hi hrest

/-- What a loop has collected of the elements that it has seen, and some before them. -/
theorem foldlM_collects_from {J : List α → σ → Prop} {seen l : List α}
    (hstep : ∀ seen s a s', J seen s → step s a = .ok s' → J (seen ++ [a]) s') (hs : J seen s)
    (h : l.foldlM step s = .ok t) : J (seen ++ l) t := by
  induction l generalizing seen s with
  | nil =>
    cases h
    simpa using hs
  | cons a l ih =>
    obtain ⟨s', hs', hrest⟩ := foldlM_cons_eq_ok.mp h
    simpa using ih (hstep seen s a s' hs hs') hrest

/-- **What a loop has collected** of the elements that it has seen. -/
theorem foldlM_collects {J : List α → σ → Prop} {l : List α}
    (hstep : ∀ seen s a s', J seen s → step s a = .ok s' → J (seen ++ [a]) s') (hs : J [] s)
    (h : l.foldlM step s = .ok t) : J l t :=
  foldlM_collects_from hstep hs h

end Loops

/-- A function that may raise **succeeds on a list** exactly if it does so on each element. -/
theorem mapM_isOk_iff {g : α → Except ε β} {l : List α} :
    (∃ bs, l.mapM g = .ok bs) ↔ ∀ a ∈ l, ∃ b, g a = .ok b := by
  induction l with
  | nil => exact iff_of_true ⟨[], rfl⟩ fun _ h => absurd h List.not_mem_nil
  | cons a l ih =>
    simp only [List.mapM_cons, exceptBind_eq_ok, List.forall_mem_cons, ← ih]
    constructor
    · rintro ⟨_, b, hb, bs, hbs, -⟩
      exact ⟨⟨b, hb⟩, bs, hbs⟩
    · rintro ⟨⟨b, hb⟩, bs, hbs⟩
      exact ⟨b :: bs, b, hb, bs, hbs, rfl⟩

/-- What comes out is what the function made of an element. -/
theorem mem_of_mapM {g : α → Except ε β} {l : List α} {bs : List β} {b : β}
    (h : l.mapM g = .ok bs) : b ∈ bs ↔ ∃ a ∈ l, g a = .ok b := by
  induction l generalizing bs with
  | nil =>
    obtain rfl := Except.ok.inj h
    simp
  | cons a l ih =>
    rw [List.mapM_cons] at h
    obtain ⟨c, hc, h⟩ := exceptBind_eq_ok.mp h
    obtain ⟨cs, hcs, h⟩ := exceptBind_eq_ok.mp h
    obtain rfl := Except.ok.inj h
    rw [List.mem_cons, ih hcs]
    simp [hc, @eq_comm _ b]

/-- Elements with what a function makes of them. -/
theorem mapM_tagged {κ : Type} {g : α → Except ε κ} {l : List α} {tagged : List (κ × α)}
    (h : l.mapM (fun a => (g a).map fun k => (k, a)) = .ok tagged) :
    tagged.map (·.2) = l ∧ ∀ x ∈ tagged, g x.2 = .ok x.1 := by
  induction l generalizing tagged with
  | nil =>
    obtain rfl := Except.ok.inj h
    exact ⟨rfl, fun _ hx => absurd hx List.not_mem_nil⟩
  | cons a l ih =>
    rw [List.mapM_cons] at h
    obtain ⟨x, hx, h⟩ := exceptBind_eq_ok.mp h
    obtain ⟨rest, hrest, h⟩ := exceptBind_eq_ok.mp h
    obtain rfl := Except.ok.inj h
    obtain ⟨k, hk, rfl⟩ := exceptMap_eq_ok.mp hx
    obtain ⟨hl, hall⟩ := ih hrest
    exact ⟨by rw [List.map_cons, hl], List.forall_mem_cons.mpr ⟨hk, hall⟩⟩

end FinanceIntelligence
