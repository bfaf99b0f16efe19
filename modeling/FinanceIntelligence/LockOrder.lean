import FinanceIntelligence.RelyGuarantee

/-!
# Who waits for whom

A general layer over `RelyGuarantee`: the rows that a process takes, the rows
that it waits for, and the graph of the processes that wait for each other.

* `Discipline.obeys` — **rules of waiting** for one process: whatever row it may
  have to wait for, it knows `W` of the rows it holds and of the contents then.
  The rules compose like `Discipline.wp`.
* `Obeying` — every process obeys the rules of its call. It holds in every
  reachable state (`Sound.obeying`), and says what a process that waits holds
  (`Obeying.rule`).
* `Model.WaitsFor` — the **wait-for graph** of a state.
-/

namespace FinanceIntelligence

variable {R A I N D X C E : Type}

namespace Model

variable [DecidableEq R] (M : Model R A I N D X C E)

omit [DecidableEq R] in
/-- The rows that the next instruction of the process has to wait for until they
are free. -/
def wants (s : Sys R A I N D X C) (pr : Proc R A I N D X C) : List R :=
  match pr.prog with
  | .lock r q _ => if q (M.schema.view pr.pending s.db) then [r] else []
  | .write a _ => (M.schema.target a).toList
  | _ => []

omit [DecidableEq R] in
/-- The rows that the next instruction of the process locks. -/
def takes (s : Sys R A I N D X C) (p : ℕ) (pr : Proc R A I N D X C) : List R :=
  match pr.prog with
  | .lockSkip rs n _ => ((rs (M.schema.view pr.pending s.db)).filter (s.free p)).take n
  | _ => M.wants s pr

omit [DecidableEq R] in
/-- The process `p` waits for a row that `q` holds. -/
def WaitsFor (s : Sys R A I N D X C) (p q : ℕ) : Prop :=
  ∃ pr r, s.proc p = some pr ∧ r ∈ M.wants s pr ∧ s.owner r = some q ∧ q ≠ p

omit [DecidableEq R] in
/-- A test of `WaitsFor`. -/
def waitsFor (s : Sys R A I N D X C) (p q : ℕ) : Bool :=
  (s.proc p).any fun pr => (M.wants s pr).any fun r => s.owner r = some q && q ≠ p

omit [DecidableEq R] in
variable {M} in
theorem waitsFor_eq_true {s : Sys R A I N D X C} {p q : ℕ} (h : M.waitsFor s p q = true) :
    M.WaitsFor s p q := by
  obtain ⟨pr, hp, hr⟩ := (Option.any_eq_true _ _).mp h
  obtain ⟨r, hr, howner⟩ := List.any_eq_true.mp hr
  simp only [Bool.and_eq_true, decide_eq_true_eq] at howner
  exact ⟨pr, r, hp, hr, howner⟩

omit [DecidableEq R] in
/-- The first step of a circle leads to a circle. -/
theorem exists_step_of_cycle {E : ℕ → ℕ → Prop} {p : ℕ} (h : Relation.TransGen E p p) :
    ∃ q, E p q ∧ Relation.TransGen E q q := by
  obtain ⟨q, hpq, hqp⟩ := Relation.TransGen.head'_iff.mp h
  exact ⟨q, hpq, Relation.TransGen.tail' hqp hpq⟩

variable {M} {s s' : Sys R A I N D X C} {p q : ℕ} {r : R}

theorem owner_acquire_self {l : List R} (h : (s.acquire p l).owner r = some q) :
    s.owner r = some q ∨ q = p ∧ r ∈ l := by
  by_cases hr : r ∈ l
  · rw [Sys.acquire] at h
    simp only [hr, if_true] at h
    exact .inr ⟨(Option.some.inj h).symm, hr⟩
  · rw [Sys.acquire] at h
    simp only [hr, if_false] at h
    exact .inl h

omit [DecidableEq R] in
theorem owner_of_release (h : (s.release p).owner r = some q) : s.owner r = some q := by
  rw [Sys.release] at h
  dsimp only at h
  split at h
  · cases h
  · exact h

/-- **Inversion of a step, locks**: a lock was held before, or the process took
it in this step, which changes no contents. -/
theorem owner_of_step {a : Act I C E} (hs : M.step a s = some s') (h : s'.owner r = some q) :
    s.owner r = some q ∨
      ∃ i pr, a = .exec q i ∧ s.proc q = some pr ∧ r ∈ M.takes s q pr ∧ s'.db = s.db := by
  cases a with
  | spawn p c =>
    simp only [step] at hs
    split at hs
    · obtain rfl := Option.some.inj hs
      exact .inl h
    · cases hs
  | crash p =>
    obtain ⟨_, _, rfl⟩ := Option.map_eq_some_iff.mp hs
    exact .inl (owner_of_release h)
  | env e =>
    obtain rfl := Option.some.inj hs
    exact .inl h
  | exec p i =>
    obtain ⟨⟨c, prog, pending, mark⟩, hp, hexec⟩ := Option.bind_eq_some_iff.mp hs
    cases prog with
    | ret a =>
      obtain rfl := Option.some.inj hexec
      exact .inl (owner_of_release h)
    | raise x =>
      obtain rfl := Option.some.inj hexec
      exact .inl (owner_of_release h)
    | ask k =>
      obtain rfl := Option.some.inj hexec
      exact .inl h
    | read k =>
      obtain rfl := Option.some.inj hexec
      exact .inl h
    | lock r' t k =>
      simp only [exec] at hexec
      split at hexec
      · rename_i ht
        split at hexec
        · obtain rfl := Option.some.inj hexec
          obtain hown | ⟨rfl, hr⟩ := owner_acquire_self h
          · exact .inl hown
          · refine .inr ⟨i, _, rfl, hp, ?_, rfl⟩
            simpa only [takes, wants, ht, if_true] using hr
        · cases hexec
      · obtain rfl := Option.some.inj hexec
        exact .inl h
    | lockSkip rs n k =>
      obtain rfl := Option.some.inj hexec
      obtain hown | ⟨rfl, hr⟩ := owner_acquire_self h
      · exact .inl hown
      · exact .inr ⟨i, _, rfl, hp, hr, rfl⟩
    | write a k =>
      simp only [exec] at hexec
      split at hexec
      · split at hexec
        all_goals
          obtain rfl := Option.some.inj hexec
          obtain hown | ⟨rfl, hr⟩ := owner_acquire_self h
          · exact .inl hown
          · exact .inr ⟨i, _, rfl, hp, hr, rfl⟩
      · cases hexec
    | commit k =>
      simp only [exec] at hexec
      split at hexec
      all_goals
        obtain rfl := Option.some.inj hexec
        exact .inl (owner_of_release (s := _) h)
    | rollback k =>
      obtain rfl := Option.some.inj hexec
      exact .inl (owner_of_release h)
    | note n k =>
      obtain rfl := Option.some.inj hexec
      exact .inl h

end Model

namespace Discipline

variable {M : Model R A I N D X C E} (G : Discipline M) {α β : Type}

/-- The rules of waiting of a program: `W` of every row that it may have to wait
for, in the configuration that waits, and `Q` of what it returns. -/
def obeys (W : Cfg R A N D → R → Prop) :
    Prog R A I N D X α → (α → Cfg R A N D → Prop) → Cfg R A N D → Prop
  | .ret a, Q, σ => Q a σ
  | .raise _, _, _ => True
  | .ask k, Q, σ => ∀ i, obeys W (k i) Q σ
  | .read k, Q, σ => ∀ d, G.rely σ d →
      obeys W (k (M.schema.view σ.pending d)) Q { σ with db := d }
  | .lock r _ k, Q, σ => ∀ d, G.rely σ d →
      (r ∉ σ.held → W { σ with db := d } r) ∧
      obeys W (k true) Q { σ with held := insert r σ.held, db := d } ∧
      obeys W (k false) Q { σ with db := d }
  | .lockSkip rs n k, Q, σ => ∀ d, G.rely σ d →
      ∀ l, List.Sublist l (rs (M.schema.view σ.pending d)) → l.length ≤ n →
        obeys W (k l) Q { σ with held := σ.held ∪ {r | r ∈ l}, db := d }
  | .write a k, Q, σ => ∀ d, G.rely σ d →
      (∀ r ∈ (M.schema.target a).toList, r ∉ σ.held → W { σ with db := d } r) ∧
      obeys W (k true) Q { σ with
        held := σ.held ∪ {r | r ∈ (M.schema.target a).toList}
        pending := σ.pending ++ [a]
        db := d } ∧
      obeys W (k false) Q { σ with
        held := σ.held ∪ {r | r ∈ (M.schema.target a).toList}
        db := d }
  | .commit k, Q, σ => ∀ d e, G.inv d → obeys W (k e) Q ⟨∅, [], σ.mark, d⟩
  | .rollback k, Q, σ => ∀ d, G.rely σ d → obeys W k Q ⟨∅, [], σ.mark, d⟩
  | .note n k, Q, σ => ∀ d, G.rely σ d → obeys W k Q { σ with mark := some n, db := d }

variable {G} {W : Cfg R A N D → R → Prop}

/-- Rules of waiting compose through sequencing. -/
@[simp] theorem obeys_bind {p : Prog R A I N D X α} {f : α → Prog R A I N D X β}
    {Q : β → Cfg R A N D → Prop} :
    G.obeys W (p.bind f) Q = G.obeys W p fun a => G.obeys W (f a) Q := by
  funext σ
  induction p generalizing σ with
  | ret a => rfl
  | raise x => rfl
  | ask k ih => simp only [Prog.bind, obeys, ih]
  | read k ih => simp only [Prog.bind, obeys, ih]
  | lock r q k ih => simp only [Prog.bind, obeys, ih]
  | lockSkip rs n k ih => simp only [Prog.bind, obeys, ih]
  | write a k ih => simp only [Prog.bind, obeys, ih]
  | commit k ih => simp only [Prog.bind, obeys, ih]
  | rollback k ih => simp only [Prog.bind, obeys, ih]
  | note n k ih => simp only [Prog.bind, obeys, ih]

/-- Weaker postconditions are easier to meet. -/
theorem obeys_mono {p : Prog R A I N D X α} {Q Q' : α → Cfg R A N D → Prop}
    (hQ : ∀ a σ, Q a σ → Q' a σ) {σ : Cfg R A N D} (h : G.obeys W p Q σ) : G.obeys W p Q' σ := by
  induction p generalizing σ with
  | ret a => exact hQ a σ h
  | raise x => trivial
  | ask k ih => exact fun i => ih i (h i)
  | read k ih => exact fun d hd => ih _ (h d hd)
  | lock r q k ih =>
    intro d hd
    obtain ⟨hwait, htrue, hfalse⟩ := h d hd
    exact ⟨hwait, ih _ htrue, ih _ hfalse⟩
  | lockSkip rs n k ih => exact fun d hd l hl hn => ih _ (h d hd l hl hn)
  | write a k ih =>
    intro d hd
    obtain ⟨hwait, htrue, hfalse⟩ := h d hd
    exact ⟨hwait, ih _ htrue, ih _ hfalse⟩
  | commit k ih => exact fun d e hd => ih e (h d e hd)
  | rollback k ih => exact fun d hd => ih (h d hd)
  | note n k ih => exact fun d hd => ih (h d hd)

/-- A rule that says nothing is obeyed. -/
theorem obeys_always (p : Prog R A I N D X α) {σ : Cfg R A N D} :
    G.obeys (fun _ _ => True) p (fun _ _ => True) σ := by
  induction p generalizing σ with
  | ret a => trivial
  | raise x => trivial
  | ask k ih => exact fun i => ih i
  | read k ih => exact fun d _ => ih _
  | lock r q k ih => exact fun d _ => ⟨fun _ => trivial, ih _, ih _⟩
  | lockSkip rs n k ih => exact fun d _ l _ _ => ih l
  | write a k ih => exact fun d _ => ⟨fun _ _ _ => trivial, ih _, ih _⟩
  | commit k ih => exact fun d e _ => ih e
  | rollback k ih => exact fun d _ => ih
  | note n k ih => exact fun d _ => ih

/-- A process that waits while others run keeps its rules. -/
theorem obeys_rely {p : Prog R A I N D X α} {Q : α → Cfg R A N D → Prop}
    (hQ : ∀ a σ d, Q a σ → G.rely σ d → Q a { σ with db := d }) {σ : Cfg R A N D} {d : D}
    (h : G.obeys W p Q σ) (hd : G.rely σ d) : G.obeys W p Q { σ with db := d } := by
  induction p with
  | ret a => exact hQ a σ d h hd
  | raise x => trivial
  | ask k ih => exact fun i => ih i (h i)
  | read k _ => exact fun d' hd' => h d' (G.rely_trans hd hd')
  | lock r q k _ => exact fun d' hd' => h d' (G.rely_trans hd hd')
  | lockSkip rs n k _ => exact fun d' hd' => h d' (G.rely_trans hd hd')
  | write a k _ => exact fun d' hd' => h d' (G.rely_trans hd hd')
  | commit k _ => exact h
  | rollback k _ => exact fun d' hd' => h d' (G.rely_trans hd hd')
  | note n k _ => exact fun d' hd' => h d' (G.rely_trans hd hd')

end Discipline

/-- The program locks rows of `H` only, and none after it has ended its
transaction. -/
def Prog.Within (S : Schema R A D) {α : Type} (H : Set R) : Prog R A I N D X α → Prop
  | .ret _ => True
  | .raise _ => True
  | .ask k => ∀ i, (k i).Within S H
  | .read k => ∀ d, (k d).Within S H
  | .lock r _ k => r ∈ H ∧ ∀ b, (k b).Within S H
  | .lockSkip _ _ _ => False
  | .write a k => (∀ r ∈ (S.target a).toList, r ∈ H) ∧ ∀ b, (k b).Within S H
  | .commit k => ∀ e, (k e).Within S ∅
  | .rollback k => k.Within S ∅
  | .note _ k => k.Within S H

namespace Prog.Within

variable {S : Schema R A D} {α β : Type} {H : Set R}

theorem bind {p : Prog R A I N D X α} {f : α → Prog R A I N D X β} (hp : p.Within S H)
    (hs : p.Stays) (hf : ∀ a, (f a).Within S H) : (p.bind f).Within S H := by
  induction p with
  | ret a => exact hf a
  | raise x => trivial
  | ask k ih => exact fun i => ih i (hp i) (hs i)
  | read k ih => exact fun d => ih d (hp d) (hs d)
  | lock r q k ih => exact ⟨hp.1, fun b => ih b (hp.2 b) (hs b)⟩
  | lockSkip rs n k ih => exact hp.elim
  | write a k ih => exact ⟨hp.1, fun b => ih b (hp.2 b) (hs b)⟩
  | commit k => exact hs.elim
  | rollback k => exact hs.elim
  | note n k ih => exact ih hp hs

end Prog.Within

namespace Discipline

variable {M : Model R A I N D X C E} {G : Discipline M} {W : Cfg R A N D → R → Prop} {α : Type}

/-- A program that locks what it holds never waits. -/
theorem obeys_of_within {p : Prog R A I N D X α} {H : Set R} {σ : Cfg R A N D}
    (hp : p.Within M.schema H) (hH : H ⊆ σ.held) : G.obeys W p (fun _ _ => True) σ := by
  induction p generalizing H σ with
  | ret a => trivial
  | raise x => trivial
  | ask k ih => exact fun i => ih i (hp i) hH
  | read k ih => exact fun d _ => ih _ (hp _) hH
  | lock r q k ih =>
    exact fun d _ => ⟨fun hr => absurd (hH hp.1) hr,
      ih _ (hp.2 _) (hH.trans (Set.subset_insert _ _)), ih _ (hp.2 _) hH⟩
  | lockSkip rs n k ih => exact hp.elim
  | write a k ih =>
    exact fun d _ => ⟨fun r hr hheld => absurd (hH (hp.1 r hr)) hheld,
      ih _ (hp.2 _) (hH.trans Set.subset_union_left), ih _ (hp.2 _) (hH.trans Set.subset_union_left)⟩
  | commit k ih => exact fun d e _ => ih e (hp e) (Set.empty_subset _)
  | rollback k ih => exact fun d _ => ih hp (Set.empty_subset _)
  | note n k ih => exact fun d _ => ih hp hH

/-- A part of a transaction that locks what the transaction holds neither waits nor
takes anything. -/
theorem obeys_frame {p : Prog R A I N D X α} {H : Set R} {σ₀ σ : Cfg R A N D}
    (hs : p.Stays) (hp : p.Within M.schema H) (hH : H ⊆ σ.held) (hσ : G.follows σ₀ σ)
    (hheld : σ.held = σ₀.held) :
    G.obeys W p (fun _ σ' => G.follows σ₀ σ' ∧ σ'.held = σ₀.held) σ := by
  induction p generalizing σ with
  | ret a => exact ⟨hσ, hheld⟩
  | raise x => trivial
  | ask k ih => exact fun i => ih i (hs i) (hp i) hH hσ hheld
  | read k ih => exact fun d hd => ih _ (hs _) (hp _) hH (hσ.rely hd subset_rfl rfl) hheld
  | lock r q k ih =>
    intro d hd
    have hr : r ∈ σ.held := hH hp.1
    refine ⟨fun h => absurd hr h, ?_, ?_⟩
    · exact ih _ (hs _) (hp.2 _) (hH.trans (Set.subset_insert _ _))
        (hσ.rely hd (Set.subset_insert _ _) rfl) ((Set.insert_eq_of_mem hr).trans hheld)
    · exact ih _ (hs _) (hp.2 _) hH (hσ.rely hd subset_rfl rfl) hheld
  | lockSkip rs n k ih => exact hp.elim
  | write a k ih =>
    intro d hd
    have hunion : σ.held ∪ {r | r ∈ (M.schema.target a).toList} = σ.held :=
      Set.union_eq_left.mpr fun r hr => hH (hp.1 r hr)
    refine ⟨fun r hr h => absurd (hH (hp.1 r hr)) h, ?_, ?_⟩ <;>
      exact ih _ (hs _) (hp.2 _) (hH.trans Set.subset_union_left)
        (hσ.rely hd Set.subset_union_left rfl) (hunion.trans hheld)
  | commit k => exact hs.elim
  | rollback k => exact hs.elim
  | note n k ih => exact fun d hd => ih hs hp hH (hσ.rely hd subset_rfl rfl) hheld

/-! ## Every reachable state -/

variable (G) in
/-- Every process obeys the rules of its call. -/
def Obeying (W : C → Cfg R A N D → R → Prop) (s : Sys R A I N D X C) : Prop :=
  ∀ p pr, s.proc p = some pr → G.obeys (W pr.call) pr.prog (fun _ _ => True) (cfg s p pr)

variable {W : C → Cfg R A N D → R → Prop} {s s' : Sys R A I N D X C} {p q : ℕ}

/-- What a process that has to wait knows. -/
theorem Obeying.rule (h : G.Obeying W s) (hs : G.Safe s) {pr : Proc R A I N D X C}
    (hp : s.proc p = some pr) {r : R} (hr : r ∈ M.wants s pr) (hheld : s.owner r ≠ some p) :
    W pr.call (cfg s p pr) r := by
  have hobeys := h p pr hp
  have hrely : G.rely (cfg s p pr) s.db := G.rely_refl hs.inv
  rw [Model.wants] at hr
  split at hr
  · rename_i r' q k hk
    rw [hk] at hobeys
    split at hr
    · obtain rfl := List.mem_singleton.mp hr
      exact (hobeys s.db hrely).1 hheld
    · cases hr
  · rename_i a k hk
    rw [hk] at hobeys
    exact (hobeys s.db hrely).1 r hr hheld
  · cases hr

variable [DecidableEq R]

/-- **Inversion of a step, one process**: it is as it was, and what its locks
protect with it; or it is new; or it took the step. -/
theorem Safe.step_process (hG : G.Sound) (h : G.Safe s) {a : Act I C E}
    (hs : M.step a s = some s') {pr' : Proc R A I N D X C} (hq : s'.proc q = some pr') :
    (s.proc q = some pr' ∧ s'.held q = s.held q ∧ G.rely (cfg s q pr') s'.db) ∨
      (∃ c, pr' = ⟨c, M.body c, [], none⟩ ∧ s'.held q = ∅) ∨
      ∃ i pr, s.proc q = some pr ∧ M.exec q i s pr = some s' := by
  have hrefl : ∀ pr, G.rely (cfg s q pr) s.db := fun _ => G.rely_refl h.inv
  -- a process other than the one that is gone
  have hdrop : ∀ p, s' = s.drop p →
      s.proc q = some pr' ∧ s'.held q = s.held q ∧ G.rely (cfg s q pr') s'.db := by
    rintro p rfl
    by_cases hqp : q = p
    · subst hqp
      simp at hq
    · rw [Sys.proc_drop, Function.update_of_ne hqp] at hq
      exact ⟨hq, Set.ext fun r => owner_release r hqp, hrefl _⟩
  cases a with
  | spawn p c =>
    simp only [Model.step] at hs
    split at hs
    · rename_i hp
      obtain rfl := Option.some.inj hs
      by_cases hqp : q = p
      · subst hqp
        rw [Sys.proc_put, Function.update_self] at hq
        refine .inr (.inl ⟨c, (Option.some.inj hq).symm, Set.eq_empty_of_forall_notMem fun r hr => ?_⟩)
        have howned := h.owned r q hr
        rw [hp] at howned
        cases howned
      · rw [Sys.proc_put, Function.update_of_ne hqp] at hq
        exact .inl ⟨hq, rfl, hrefl _⟩
    · cases hs
  | crash p =>
    obtain ⟨_, _, rfl⟩ := Option.map_eq_some_iff.mp hs
    exact .inl (hdrop p rfl)
  | env e =>
    obtain rfl := Option.some.inj hs
    exact .inl ⟨hq, rfl, hG.env_inv e _ h.inv, hG.env_evolves e _, fun r _ => hG.env_agree e r _⟩
  | exec p i =>
    obtain ⟨pr, hp, hexec⟩ := Option.bind_eq_some_iff.mp hs
    by_cases hqp : q = p
    · subst hqp
      exact .inr (.inr ⟨i, pr, hp, hexec⟩)
    · obtain hdropped | ⟨pr'', ha⟩ := exec_cases h.inv (h.meets p pr hp) hexec
      · exact .inl (hdrop p hdropped)
      · rw [ha.proc, Function.update_of_ne hqp] at hq
        refine .inl ⟨hq, Set.ext fun r => ha.owner r q hqp, ?_⟩
        rcases ha.effect with ⟨hdb, -⟩ | ⟨-, -, -, hinv, hguar, hagree⟩
        · rw [hdb]
          exact hrefl _
        · refine ⟨hinv, G.guar_evolves _ _ _ _ hguar, fun r hr => hagree r fun hp' => hqp ?_⟩
          exact Option.some.inj ((show s.owner r = some q from hr).symm.trans hp')

/-- A commit releases every lock. -/
theorem held_of_commit {pr : Proc R A I N D X C} {i : I} (hcommit : pr.prog.isCommit = true)
    (hs : M.exec p i s pr = some s') : s'.held p = ∅ := by
  obtain ⟨c, prog, pending, mark⟩ := pr
  cases prog with
  | commit k =>
    simp only [Model.exec] at hs
    split at hs
    all_goals
      obtain rfl := Option.some.inj hs
      exact held_release (s := _)
  | _ => cases hcommit

/-- A lock that a process goes on holding protects its row. -/
theorem Safe.agree_of_owner (hG : G.Sound) (h : G.Safe s) {a : Act I C E}
    (hs : M.step a s = some s') {r : R} (hr : s.owner r = some q) (hr' : s'.owner r = some q) :
    G.agree r s.db s'.db := by
  obtain ⟨pr', hq⟩ := Option.isSome_iff_exists.mp ((h.step hG hs).owned r q hr')
  obtain ⟨-, -, hrely⟩ | ⟨c, -, hheld⟩ | ⟨i, pr, hp, hexec⟩ := h.step_process hG hs hq
  · exact hrely.agree r hr
  · have hmem : r ∈ s'.held q := hr'
    rw [hheld] at hmem
    exact absurd hmem (Set.notMem_empty r)
  · obtain rfl | ⟨pr'', ha⟩ := exec_cases h.inv (h.meets q pr hp) hexec
    · exact G.agree_refl _ _
    · rcases ha.effect with ⟨hdb, -⟩ | ⟨hcommit, -⟩
      · rw [hdb]
        exact G.agree_refl _ _
      · -- a commit releases the lock
        have hmem : r ∈ s'.held q := hr'
        rw [held_of_commit hcommit hexec] at hmem
        exact absurd hmem (Set.notMem_empty r)

/-- A process that holds a lock after a step served the same call before it. -/
theorem Safe.call_of_owner (hG : G.Sound) (h : G.Safe s) {a : Act I C E}
    (hs : M.step a s = some s') {r : R} (hr : s'.owner r = some q) {pr' : Proc R A I N D X C}
    (hq : s'.proc q = some pr') : ∃ pr, s.proc q = some pr ∧ pr.call = pr'.call := by
  obtain ⟨hp, -⟩ | ⟨c, -, hheld⟩ | ⟨i, pr, hp, hexec⟩ := h.step_process hG hs hq
  · exact ⟨pr', hp, rfl⟩
  · have hmem : r ∈ s'.held q := hr
    rw [hheld] at hmem
    exact absurd hmem (Set.notMem_empty r)
  · obtain rfl | ⟨pr'', ha⟩ := exec_cases h.inv (h.meets q pr hp) hexec
    · simp at hq
    · rw [ha.proc, Function.update_self] at hq
      obtain rfl := Option.some.inj hq
      exact ⟨pr, hp, ha.call.symm⟩

/-- A process that takes a step goes on obeying its rules. -/
theorem obeys_exec (h : G.Safe s) {pr pr' : Proc R A I N D X C} {i : I}
    (hobeys : G.obeys (W pr.call) pr.prog (fun _ _ => True) (cfg s p pr))
    (hs : M.exec p i s pr = some s') (hinv : G.inv s'.db) (hp : s'.proc p = some pr') :
    G.obeys (W pr'.call) pr'.prog (fun _ _ => True) (cfg s' p pr') := by
  have hrely : G.rely (cfg s p pr) s.db := G.rely_refl h.inv
  obtain ⟨c, prog, pending, mark⟩ := pr
  -- what the process is after an instruction that does not end it
  have hput : ∀ {s₁ : Sys R A I N D X C} {pr₁}, s' = s₁.put p pr₁ → pr₁ = pr' := by
    rintro s₁ pr₁ rfl
    rw [Sys.proc_put, Function.update_self] at hp
    exact Option.some.inj hp
  have hdrop : s' ≠ s.drop p := by
    rintro rfl
    simp at hp
  cases prog with
  | ret a => exact absurd (Option.some.inj hs).symm hdrop
  | raise x => exact absurd (Option.some.inj hs).symm hdrop
  | ask k =>
    obtain rfl := Option.some.inj hs
    obtain rfl := hput rfl
    exact hobeys i
  | read k =>
    obtain rfl := Option.some.inj hs
    obtain rfl := hput rfl
    exact hobeys _ hrely
  | lock r t k =>
    obtain ⟨-, htrue, hfalse⟩ := hobeys _ hrely
    simp only [Model.exec] at hs
    split at hs
    · split at hs
      · obtain rfl := Option.some.inj hs
        obtain rfl := hput rfl
        have hheld : (s.acquire p [r]).held p = insert r (s.held p) := by
          rw [held_acquire]
          ext
          simp [or_comm]
        rwa [cfg, ← hheld] at htrue
      · cases hs
    · obtain rfl := Option.some.inj hs
      obtain rfl := hput rfl
      exact hfalse
  | lockSkip rs n k =>
    obtain rfl := Option.some.inj hs
    obtain rfl := hput rfl
    have := hobeys _ hrely (((rs (M.schema.view pending s.db)).filter (s.free p)).take n)
      ((List.take_sublist _ _).trans List.filter_sublist) (List.length_take_le _ _)
    rwa [cfg, ← held_acquire] at this
  | write a k =>
    obtain ⟨-, htrue, hfalse⟩ := hobeys _ hrely
    simp only [Model.exec] at hs
    split at hs
    · split at hs
      · obtain rfl := Option.some.inj hs
        obtain rfl := hput rfl
        rwa [cfg, ← held_acquire] at htrue
      · obtain rfl := Option.some.inj hs
        obtain rfl := hput rfl
        rwa [cfg, ← held_acquire] at hfalse
    · cases hs
  | commit k =>
    simp only [Model.exec] at hs
    split at hs
    · rename_i d hd
      obtain rfl := Option.some.inj hs
      obtain rfl := hput rfl
      have := hobeys d none hinv
      rwa [← held_release (s := { s with db := d }) (p := p)] at this
    · rename_i e _
      obtain rfl := Option.some.inj hs
      obtain rfl := hput rfl
      have := hobeys s.db (some e) h.inv
      rwa [← held_release (s := s) (p := p)] at this
  | rollback k =>
    obtain rfl := Option.some.inj hs
    obtain rfl := hput rfl
    have := hobeys _ hrely
    rwa [← held_release (s := s) (p := p)] at this
  | note n k =>
    obtain rfl := Option.some.inj hs
    obtain rfl := hput rfl
    exact hobeys _ hrely

/-- **Soundness of the rules**: in every reachable state every process obeys the
rules of its call. -/
theorem Sound.obeying (hG : G.Sound) {d₀ : D} (h₀ : G.inv d₀)
    (hbody : ∀ c d, G.inv d → G.obeys (W c) (M.body c) (fun _ _ => True) ⟨∅, [], none, d⟩)
    (h : M.Reachable d₀ s) : G.Obeying W s := by
  induction h with
  | start => exact fun p pr hp => (nomatch hp)
  | step hr _ hs ih =>
    intro q pr' hq
    have hsafe := hG.safe h₀ hr
    have hinv := (hsafe.step hG hs).inv
    obtain ⟨hp, hheld, hrely⟩ | ⟨c, rfl, hheld⟩ | ⟨i, pr, hp, hexec⟩ :=
      hsafe.step_process hG hs hq
    · have := obeys_rely (fun _ _ _ h _ => h) (ih q pr' hp) hrely
      rwa [cfg, hheld]
    · rw [cfg, hheld]
      exact hbody c _ hinv
    · exact obeys_exec hsafe (ih q pr hp) hexec hinv hq

end Discipline

end FinanceIntelligence
