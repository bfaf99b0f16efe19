import FinanceIntelligence.Transaction

/-!
# Counting steps of runs

A general layer over `Transaction`. `Model.CountedBy` are the states of runs
together with how often a step of a kind was taken on the way. A **potential**
that no step lowers and that every step of the kind raises bounds the count. A concrete run is counted by `Model.countBy`.
-/

namespace FinanceIntelligence

namespace Model

variable {R A I N D X C E : Type} [DecidableEq R] (M : Model R A I N D X C E)

/-- The states of the runs from `d₀` all of whose steps meet `ok`, in which steps
of the kind `ev` were taken `n` times. -/
inductive CountedBy (ok : Act I C E → Sys R A I N D X C → Prop)
    (ev : Act I C E → Sys R A I N D X C → Sys R A I N D X C → Prop) (d₀ : D) :
    ℕ → Sys R A I N D X C → Prop where
  /-- nothing has happened yet -/
  | start : CountedBy ok ev d₀ 0 (idle d₀)
  /-- a step of the kind -/
  | hit {n : ℕ} {s s' : Sys R A I N D X C} {a : Act I C E} :
      CountedBy ok ev d₀ n s → ok a s → M.step a s = some s' → ev a s s' →
        CountedBy ok ev d₀ (n + 1) s'
  /-- another step -/
  | miss {n : ℕ} {s s' : Sys R A I N D X C} {a : Act I C E} :
      CountedBy ok ev d₀ n s → ok a s → M.step a s = some s' → ¬ ev a s s' →
        CountedBy ok ev d₀ n s'

/-- The states of all runs, with the number of steps of the kind `ev`. -/
abbrev Counted (ev : Act I C E → Sys R A I N D X C → Sys R A I N D X C → Prop) (d₀ : D) :
    ℕ → Sys R A I N D X C → Prop := M.CountedBy (fun _ _ => True) ev d₀

variable {M} {ok : Act I C E → Sys R A I N D X C → Prop}
  {ev : Act I C E → Sys R A I N D X C → Sys R A I N D X C → Prop} {d₀ : D}
  {s : Sys R A I N D X C}

theorem CountedBy.reachableBy {n : ℕ} (h : M.CountedBy ok ev d₀ n s) : M.ReachableBy ok d₀ s := by
  induction h with
  | start => exact .start
  | hit _ hok hs _ ih => exact .step ih hok hs
  | miss _ hok hs _ ih => exact .step ih hok hs

/-- **Potentials bound counts.** -/
theorem CountedBy.add_le_potential {f : Sys R A I N D X C → ℕ}
    (hstep : ∀ {s s' a}, M.ReachableBy ok d₀ s → ok a s → M.step a s = some s' →
      f s ≤ f s' ∧ (ev a s s' → f s + 1 ≤ f s'))
    {n : ℕ} (h : M.CountedBy ok ev d₀ n s) : f (idle d₀) + n ≤ f s := by
  induction h with
  | start => exact le_rfl
  | hit h hok hs hev ih => exact (Nat.succ_le_succ ih).trans ((hstep h.reachableBy hok hs).2 hev)
  | miss h hok hs _ ih => exact ih.trans (hstep h.reachableBy hok hs).1

theorem CountedBy.le_potential {f : Sys R A I N D X C → ℕ}
    (hstep : ∀ {s s' a}, M.ReachableBy ok d₀ s → ok a s → M.step a s = some s' →
      f s ≤ f s' ∧ (ev a s s' → f s + 1 ≤ f s'))
    {n : ℕ} (h : M.CountedBy ok ev d₀ n s) : n ≤ f s :=
  (Nat.le_add_left ..).trans (h.add_le_potential hstep)

/-! ## Concrete runs -/

/-- Take the steps of a list in order, as long as each passes a test, and count
those of a kind. -/
def countBy (M : Model R A I N D X C E) (test : Act I C E → Sys R A I N D X C → Bool)
    (kind : Act I C E → Sys R A I N D X C → Sys R A I N D X C → Bool) :
    List (Act I C E) → Sys R A I N D X C → Option (ℕ × Sys R A I N D X C)
  | [], s => some (0, s)
  | a :: rest, s =>
    if test a s then
      (M.step a s).bind fun s' =>
        (M.countBy test kind rest s').map fun x => ((kind a s s').toNat + x.1, x.2)
    else none

/-- A run that can be taken goes on from one that was counted. The test may rest
on a property `P` of the states on the way. -/
theorem CountedBy.countBy {P : Sys R A I N D X C → Prop}
    {test : Act I C E → Sys R A I N D X C → Bool}
    {kind : Act I C E → Sys R A I N D X C → Sys R A I N D X C → Bool}
    (hok : ∀ a s, P s → test a s = true → ok a s)
    (hP : ∀ a s s', P s → test a s = true → M.step a s = some s' → P s')
    (hkind : ∀ a s s', kind a s s' = true → ev a s s') {l : List (Act I C E)} :
    ∀ {n m : ℕ} {s s' : Sys R A I N D X C}, M.CountedBy ok ev d₀ n s → P s →
      M.countBy test kind l s = some (m, s') → ∃ k, n + m ≤ k ∧ M.CountedBy ok ev d₀ k s' := by
  induction l with
  | nil =>
    intro n m s s' h _ hrun
    cases hrun
    exact ⟨n, le_rfl, h⟩
  | cons a l ih =>
    intro n m s s' h hs hrun
    rw [Model.countBy] at hrun
    split at hrun
    · rename_i ht
      obtain ⟨s₁, h₁, hrest⟩ := Option.bind_eq_some_iff.mp hrun
      obtain ⟨⟨m', s₂⟩, hm, hx⟩ := Option.map_eq_some_iff.mp hrest
      cases hx
      by_cases hev : ev a s s₁
      · obtain ⟨k, hk, hcount⟩ := ih (.hit h (hok a s hs ht) h₁ hev) (hP a s s₁ hs ht h₁) hm
        have : (kind a s s₁).toNat ≤ 1 := Bool.toNat_le _
        exact ⟨k, by omega, hcount⟩
      · obtain ⟨k, hk, hcount⟩ := ih (.miss h (hok a s hs ht) h₁ hev) (hP a s s₁ hs ht h₁) hm
        have : kind a s s₁ = false := eq_false_of_ne_true fun hkd => hev (hkind a s s₁ hkd)
        exact ⟨k, by simpa [this] using hk, hcount⟩
    · cases hrun

end Model

end FinanceIntelligence
