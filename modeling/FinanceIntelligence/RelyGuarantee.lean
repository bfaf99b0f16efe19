import FinanceIntelligence.Transaction

/-!
# Rely–guarantee reasoning about transactions

A general layer over `Transaction`. A `Discipline` says which part of the
contents a row lock protects (`agree`), what always holds (`inv`), what a commit
of each call may do (`guar`) and which statements never meet a failing
constraint (`sound`).

* `Discipline.wp` — **weakest preconditions** of one process: between two of its
  instructions the contents may change in every way the locks it holds allow.
* `Discipline.Safe` — every running process meets its precondition. It is
  preserved by every step (`Safe.step`), so it holds in every reachable state.
* `Safe.step_cases` — **inversion**: what a step can do to the contents, with no
  mention of the programs.
-/

namespace FinanceIntelligence

variable {R A I N D X C E : Type}

/-- What the processes of a model owe each other. -/
structure Discipline (M : Model R A I N D X C E) where
  /-- the part of the contents that the lock on a row protects is the same -/
  agree : R → D → D → Prop
  /-- nothing happened, so it is the same -/
  agree_refl : ∀ r d, agree r d d
  /-- changes compose -/
  agree_trans : ∀ r d₁ d₂ d₃, agree r d₁ d₂ → agree r d₂ d₃ → agree r d₁ d₃
  /-- what holds of the committed contents at all times -/
  inv : D → Prop
  /-- how the contents evolve, whoever commits and whatever is locked -/
  evolves : D → D → Prop
  /-- nothing happened -/
  evolves_refl : ∀ d, evolves d d
  /-- changes compose -/
  evolves_trans : ∀ d₁ d₂ d₃, evolves d₁ d₂ → evolves d₂ d₃ → evolves d₁ d₃
  /-- what a commit by a call may do, after the note it last made -/
  guar : C → Option N → D → D → Prop
  /-- a commit makes the contents evolve -/
  guar_evolves : ∀ c m d d', guar c m d d' → evolves d d'
  /-- what is the case when a call makes a note -/
  noted : C → N → D → Prop
  /-- what a call that raises has noted last -/
  raised : C → Option N → Prop
  /-- statements whose constraints hold wherever the programs use them -/
  sound : A → Prop

/-- What one process knows: its locks, its pending writes, its last note and the
contents at its last instruction. -/
structure Cfg (R A N D : Type) where
  /-- the rows it has locked -/
  held : Set R
  /-- statements run but not committed -/
  pending : List A
  /-- the last note -/
  mark : Option N
  /-- the committed contents it has seen -/
  db : D

namespace Discipline

variable {M : Model R A I N D X C E} (G : Discipline M) {α β : Type}

/-- The contents that a process in `σ` may find at its next instruction. -/
structure rely (σ : Cfg R A N D) (d : D) : Prop where
  /-- the invariant holds -/
  inv : G.inv d
  /-- they have evolved -/
  evolves : G.evolves σ.db d
  /-- what the locks protect is the same -/
  agree : ∀ r ∈ σ.held, G.agree r σ.db d

theorem rely_refl {σ : Cfg R A N D} (h : G.inv σ.db) : G.rely σ σ.db :=
  ⟨h, G.evolves_refl _, fun _ _ => G.agree_refl _ _⟩

theorem rely_trans {σ : Cfg R A N D} {d d' : D} (h : G.rely σ d)
    (h' : G.rely { σ with db := d } d') : G.rely σ d' :=
  ⟨h'.inv, G.evolves_trans _ _ _ h.evolves h'.evolves,
    fun r hr => G.agree_trans r _ _ _ (h.agree r hr) (h'.agree r hr)⟩

/-- Weakest precondition of a program that serves `c`: `Q` of what it returns,
`E` of what it raises, and each commit and note keeps the discipline. -/
def wp (c : C) :
    Prog R A I N D X α → (α → Cfg R A N D → Prop) → (X → Cfg R A N D → Prop) → Cfg R A N D → Prop
  | .ret a, Q, _, σ => Q a σ
  | .raise x, _, E, σ => E x σ
  | .ask k, Q, E, σ => ∀ i, wp c (k i) Q E σ
  | .read k, Q, E, σ => ∀ d, G.rely σ d →
      wp c (k (M.schema.view σ.pending d)) Q E { σ with db := d }
  | .lock r q k, Q, E, σ => ∀ d, G.rely σ d →
      (q (M.schema.view σ.pending d) = true →
        wp c (k true) Q E { σ with held := insert r σ.held, db := d }) ∧
      (q (M.schema.view σ.pending d) = false → wp c (k false) Q E { σ with db := d })
  | .lockSkip rs n k, Q, E, σ => ∀ d, G.rely σ d →
      ∀ l, List.Sublist l (rs (M.schema.view σ.pending d)) → l.length ≤ n →
        wp c (k l) Q E { σ with held := σ.held ∪ {r | r ∈ l}, db := d }
  | .write a k, Q, E, σ => ∀ d, G.rely σ d →
      (M.schema.check a (M.schema.view σ.pending d) = true →
        wp c (k true) Q E { σ with
          held := σ.held ∪ {r | r ∈ (M.schema.target a).toList}
          pending := σ.pending ++ [a]
          db := d }) ∧
      (M.schema.check a (M.schema.view σ.pending d) = false →
        ¬ G.sound a ∧ wp c (k false) Q E { σ with
          held := σ.held ∪ {r | r ∈ (M.schema.target a).toList}
          db := d })
  | .commit k, Q, E, σ => ∀ d, G.rely σ d →
      (∀ d', M.schema.replay σ.pending d = .ok d' →
        (∀ r, r ∉ σ.held → G.agree r d d') ∧ G.inv d' ∧ G.guar c σ.mark d d' ∧
          wp c (k none) Q E ⟨∅, [], σ.mark, d'⟩) ∧
      (∀ a, M.schema.replay σ.pending d = .error a →
        ¬ G.sound a ∧ wp c (k (some a)) Q E ⟨∅, [], σ.mark, d⟩)
  | .rollback k, Q, E, σ => ∀ d, G.rely σ d → wp c k Q E ⟨∅, [], σ.mark, d⟩
  | .note n k, Q, E, σ => ∀ d, G.rely σ d →
      G.noted c n d ∧ wp c k Q E { σ with mark := some n, db := d }

variable {G} {c : C}

@[simp] theorem wp_ret {a : α} {Q : α → Cfg R A N D → Prop} {E : X → Cfg R A N D → Prop}
    {σ : Cfg R A N D} : G.wp c (.ret a : Prog R A I N D X α) Q E σ ↔ Q a σ := Iff.rfl

@[simp] theorem wp_raise {x : X} {Q : α → Cfg R A N D → Prop} {E : X → Cfg R A N D → Prop}
    {σ : Cfg R A N D} : G.wp c (.raise x : Prog R A I N D X α) Q E σ ↔ E x σ := Iff.rfl

/-- Weakest preconditions compose through sequencing. -/
@[simp] theorem wp_bind {p : Prog R A I N D X α} {f : α → Prog R A I N D X β}
    {Q : β → Cfg R A N D → Prop} {E : X → Cfg R A N D → Prop} :
    G.wp c (p.bind f) Q E = G.wp c p (fun a => G.wp c (f a) Q E) E := by
  funext σ
  induction p generalizing σ with
  | ret a => rfl
  | raise x => rfl
  | ask k ih => simp only [Prog.bind, wp, ih]
  | read k ih => simp only [Prog.bind, wp, ih]
  | lock r q k ih => simp only [Prog.bind, wp, ih]
  | lockSkip rs n k ih => simp only [Prog.bind, wp, ih]
  | write a k ih => simp only [Prog.bind, wp, ih]
  | commit k ih => simp only [Prog.bind, wp, ih]
  | rollback k ih => simp only [Prog.bind, wp, ih]
  | note n k ih => simp only [Prog.bind, wp, ih]

/-- A handler takes over where the body raises. -/
@[simp] theorem wp_tryCatch {p : Prog R A I N D X α} {h : X → Prog R A I N D X α}
    {Q : α → Cfg R A N D → Prop} {E : X → Cfg R A N D → Prop} :
    G.wp c (p.tryCatch h) Q E = G.wp c p Q (fun x => G.wp c (h x) Q E) := by
  funext σ
  induction p generalizing σ with
  | ret a => rfl
  | raise x => rfl
  | ask k ih => simp only [Prog.tryCatch, wp, ih]
  | read k ih => simp only [Prog.tryCatch, wp, ih]
  | lock r q k ih => simp only [Prog.tryCatch, wp, ih]
  | lockSkip rs n k ih => simp only [Prog.tryCatch, wp, ih]
  | write a k ih => simp only [Prog.tryCatch, wp, ih]
  | commit k ih => simp only [Prog.tryCatch, wp, ih]
  | rollback k ih => simp only [Prog.tryCatch, wp, ih]
  | note n k ih => simp only [Prog.tryCatch, wp, ih]

/-- Weaker postconditions are easier to meet. -/
theorem wp_mono {p : Prog R A I N D X α} {Q Q' : α → Cfg R A N D → Prop}
    {E E' : X → Cfg R A N D → Prop} (hQ : ∀ a σ, Q a σ → Q' a σ) (hE : ∀ x σ, E x σ → E' x σ)
    {σ : Cfg R A N D} (h : G.wp c p Q E σ) : G.wp c p Q' E' σ := by
  induction p generalizing σ with
  | ret a => exact hQ a σ h
  | raise x => exact hE x σ h
  | ask k ih => exact fun i => ih i (h i)
  | read k ih => exact fun d hd => ih _ (h d hd)
  | lock r q k ih =>
    exact fun d hd => ⟨fun hq => ih _ ((h d hd).1 hq), fun hq => ih _ ((h d hd).2 hq)⟩
  | lockSkip rs n k ih => exact fun d hd l hl hn => ih _ (h d hd l hl hn)
  | write a k ih =>
    intro d hd
    obtain ⟨hok, hfail⟩ := h d hd
    exact ⟨fun hc => ih _ (hok hc), fun hc => ⟨(hfail hc).1, ih _ (hfail hc).2⟩⟩
  | commit k ih =>
    intro d hd
    obtain ⟨hok, hfail⟩ := h d hd
    refine ⟨fun d' hr => ?_, fun a hr => ⟨(hfail a hr).1, ih _ (hfail a hr).2⟩⟩
    obtain ⟨hag, hinv, hguar, hk⟩ := hok d' hr
    exact ⟨hag, hinv, hguar, ih _ hk⟩
  | rollback k ih => exact fun d hd => ih (h d hd)
  | note n k ih => exact fun d hd => ⟨(h d hd).1, ih (h d hd).2⟩

/-- A process that waits while others run keeps its precondition. -/
theorem wp_rely {p : Prog R A I N D X α} {Q : α → Cfg R A N D → Prop}
    {E : X → Cfg R A N D → Prop} (hQ : ∀ a σ d, Q a σ → G.rely σ d → Q a { σ with db := d })
    (hE : ∀ x σ d, E x σ → G.rely σ d → E x { σ with db := d }) {σ : Cfg R A N D} {d : D}
    (h : G.wp c p Q E σ) (hd : G.rely σ d) : G.wp c p Q E { σ with db := d } := by
  induction p with
  | ret a => exact hQ a σ d h hd
  | raise x => exact hE x σ d h hd
  | ask k ih => exact fun i => ih i (h i)
  | read k _ => exact fun d' hd' => h d' (G.rely_trans hd hd')
  | lock r q k _ => exact fun d' hd' => h d' (G.rely_trans hd hd')
  | lockSkip rs n k _ => exact fun d' hd' => h d' (G.rely_trans hd hd')
  | write a k _ => exact fun d' hd' => h d' (G.rely_trans hd hd')
  | commit k _ => exact fun d' hd' => h d' (G.rely_trans hd hd')
  | rollback k _ => exact fun d' hd' => h d' (G.rely_trans hd hd')
  | note n k _ => exact fun d' hd' => h d' (G.rely_trans hd hd')

/-! ## The frame rule -/

variable (G)

/-- `σ'` is later in the transaction of `σ`: its locks are still held, and what
they protect is the same. -/
structure follows (σ σ' : Cfg R A N D) : Prop where
  /-- the locks are still held -/
  held : σ.held ⊆ σ'.held
  /-- what they protect is the same -/
  agree : ∀ r ∈ σ.held, G.agree r σ.db σ'.db

variable {G}

theorem follows_refl (σ : Cfg R A N D) : G.follows σ σ := ⟨subset_rfl, fun _ _ => G.agree_refl _ _⟩

/-- One more instruction. -/
theorem follows.rely {σ₀ σ : Cfg R A N D} (h : G.follows σ₀ σ) {d : D} (hd : G.rely σ d)
    {σ' : Cfg R A N D} (hheld : σ.held ⊆ σ'.held) (hdb : σ'.db = d) : G.follows σ₀ σ' :=
  ⟨h.held.trans hheld, fun r hr =>
    G.agree_trans r _ _ _ (h.agree r hr) (hdb ▸ hd.agree r (h.held hr))⟩

/-- **Frame**: what the locks of a transaction protect stays as long as the
transaction goes on. -/
theorem wp_frame {p : Prog R A I N D X α} (hp : p.Stays) {Q : α → Cfg R A N D → Prop}
    {E : X → Cfg R A N D → Prop} {σ₀ σ : Cfg R A N D} (hσ : G.follows σ₀ σ)
    (h : G.wp c p Q E σ) : G.wp c p (fun a σ' => Q a σ' ∧ G.follows σ₀ σ') E σ := by
  induction p generalizing σ with
  | ret a => exact ⟨h, hσ⟩
  | raise x => exact h
  | ask k ih => exact fun i => ih i (hp i) hσ (h i)
  | read k ih => exact fun d hd => ih _ (hp _) (hσ.rely hd subset_rfl rfl) (h d hd)
  | lock r q k ih =>
    intro d hd
    refine ⟨fun hq => ?_, fun hq => ?_⟩
    · exact ih _ (hp _) (hσ.rely hd (Set.subset_insert _ _) rfl) ((h d hd).1 hq)
    · exact ih _ (hp _) (hσ.rely hd subset_rfl rfl) ((h d hd).2 hq)
  | lockSkip rs n k ih =>
    exact fun d hd l hl hn =>
      ih _ (hp _) (hσ.rely hd Set.subset_union_left rfl) (h d hd l hl hn)
  | write a k ih =>
    intro d hd
    obtain ⟨hok, hfail⟩ := h d hd
    refine ⟨fun hc => ?_, fun hc => ⟨(hfail hc).1, ?_⟩⟩
    · exact ih _ (hp _) (hσ.rely hd Set.subset_union_left rfl) (hok hc)
    · exact ih _ (hp _) (hσ.rely hd Set.subset_union_left rfl) (hfail hc).2
  | commit k => exact hp.elim
  | rollback k => exact hp.elim
  | note n k ih => exact fun d hd => ⟨(h d hd).1, ih hp (hσ.rely hd subset_rfl rfl) (h d hd).2⟩

/-! ## Soundness -/

/-- What the process `p` knows in the state `s`. -/
def cfg (s : Sys R A I N D X C) (p : ℕ) (pr : Proc R A I N D X C) : Cfg R A N D :=
  ⟨s.held p, pr.pending, pr.mark, s.db⟩

variable (G)

/-- The process meets its precondition. -/
def Meets (pr : Proc R A I N D X C) (σ : Cfg R A N D) : Prop :=
  G.wp pr.call pr.prog (fun _ _ => True) (fun _ σ => G.raised pr.call σ.mark) σ

/-- Every running process meets its precondition, and only running processes
hold locks. -/
structure Safe (s : Sys R A I N D X C) : Prop where
  /-- the invariant of the contents -/
  inv : G.inv s.db
  /-- the running processes -/
  meets : ∀ p pr, s.proc p = some pr → G.Meets pr (cfg s p pr)
  /-- no lock outlives its process -/
  owned : ∀ r p, s.owner r = some p → (s.proc p).isSome

/-- What a discipline has to show about the calls and the outside events. -/
structure Sound : Prop where
  /-- every call meets its precondition when it arrives -/
  body : ∀ c d, G.inv d → G.Meets ⟨c, M.body c, [], none⟩ ⟨∅, [], none, d⟩
  /-- outside events keep the invariant -/
  env_inv : ∀ e d, G.inv d → G.inv (M.env e d)
  /-- outside events make the contents evolve -/
  env_evolves : ∀ e d, G.evolves d (M.env e d)
  /-- outside events change nothing that a lock protects -/
  env_agree : ∀ e r d, G.agree r d (M.env e d)

variable {G}

/-- A process that waits while others run keeps its precondition. -/
theorem Meets.rely {pr : Proc R A I N D X C} {σ : Cfg R A N D} {d : D} (h : G.Meets pr σ)
    (hd : G.rely σ d) : G.Meets pr { σ with db := d } :=
  wp_rely (fun _ _ _ h _ => h) (fun _ _ _ h _ => h) h hd

/-- What one instruction of the process `p` does when it does not end it. -/
structure Advance (s s' : Sys R A I N D X C) (p : ℕ) (pr pr' : Proc R A I N D X C) : Prop where
  /-- the other processes are as they were -/
  proc : s'.proc = Function.update s.proc p (some pr')
  /-- it goes on serving the same call -/
  call : pr'.call = pr.call
  /-- it goes on meeting its precondition -/
  meets : G.Meets pr' (cfg s' p pr')
  /-- the other processes keep their locks -/
  owner : ∀ r q, q ≠ p → (s'.owner r = some q ↔ s.owner r = some q)
  /-- it changes nothing, or commits -/
  effect : s'.db = s.db ∧ (pr'.mark = pr.mark ∨ ∃ n, pr'.mark = some n ∧ G.noted pr.call n s.db) ∨
    pr.prog.isCommit = true ∧ s'.db = M.schema.view pr.pending s.db ∧ pr'.mark = pr.mark ∧
      G.inv s'.db ∧ G.guar pr.call pr.mark s.db s'.db ∧ ∀ r, r ∉ s.held p → G.agree r s.db s'.db

section Exec

variable [DecidableEq R] {s s' : Sys R A I N D X C} {p : ℕ}

theorem owner_acquire {l : List R} (hfree : ∀ r ∈ l, s.free p r = true) (r : R) {q : ℕ}
    (hq : q ≠ p) : (s.acquire p l).owner r = some q ↔ s.owner r = some q := by
  by_cases hr : r ∈ l
  · have hf := hfree r hr
    simp only [Sys.free, Bool.or_eq_true, decide_eq_true_eq] at hf
    rcases hf with hf | hf <;> simp [Sys.acquire, hr, hf, hq.symm]
  · simp [Sys.acquire, hr]

theorem held_acquire (l : List R) : (s.acquire p l).held p = s.held p ∪ {r | r ∈ l} := by
  ext r
  by_cases hr : r ∈ l <;> simp [Sys.held, Sys.acquire, hr]

omit [DecidableEq R] in
theorem owner_release (r : R) {q : ℕ} (hq : q ≠ p) :
    (s.release p).owner r = some q ↔ s.owner r = some q := by
  simp only [Sys.release]
  split
  · rename_i h
    simp [h, hq.symm]
  · rfl

omit [DecidableEq R] in
theorem held_release : (s.release p).held p = ∅ := by
  ext r
  simp only [Sys.held, Sys.release, Set.mem_ofPred_eq, Set.mem_empty_iff_false, iff_false]
  split
  · simp
  · assumption

/-- **One instruction**: it ends the process, or it keeps the discipline. -/
theorem exec_cases {pr : Proc R A I N D X C} {i : I} (hinv : G.inv s.db)
    (hm : G.Meets pr (cfg s p pr)) (h : M.exec p i s pr = some s') :
    s' = s.drop p ∨ ∃ pr', G.Advance s s' p pr pr' := by
  have hrely : G.rely (cfg s p pr) s.db := G.rely_refl hinv
  obtain ⟨c, prog, pending, mark⟩ := pr
  cases prog with
  | ret a => exact .inl (Option.some.inj h).symm
  | raise x => exact .inl (Option.some.inj h).symm
  | ask k =>
    obtain rfl := Option.some.inj h
    exact .inr ⟨_, rfl, rfl, hm i, fun _ _ _ => Iff.rfl, .inl ⟨rfl, .inl rfl⟩⟩
  | read k =>
    obtain rfl := Option.some.inj h
    exact .inr ⟨_, rfl, rfl, hm _ hrely, fun _ _ _ => Iff.rfl, .inl ⟨rfl, .inl rfl⟩⟩
  | lock r q k =>
    simp only [Model.exec] at h
    split at h
    · rename_i hq
      split at h
      · rename_i hfree
        obtain rfl := Option.some.inj h
        refine .inr ⟨_, rfl, rfl, ?_, fun r q hq => owner_acquire (by simpa using hfree) r hq,
          .inl ⟨rfl, .inl rfl⟩⟩
        have := (hm _ hrely).1 hq
        have hheld : (s.acquire p [r]).held p = insert r (s.held p) := by
          rw [held_acquire]
          ext
          simp [or_comm]
        rwa [cfg, ← hheld] at this
      · cases h
    · rename_i hq
      obtain rfl := Option.some.inj h
      exact .inr ⟨_, rfl, rfl, (hm _ hrely).2 (eq_false_of_ne_true hq), fun _ _ _ => Iff.rfl,
        .inl ⟨rfl, .inl rfl⟩⟩
  | lockSkip rs n k =>
    obtain rfl := Option.some.inj h
    refine .inr ⟨_, rfl, rfl, ?_, fun r q hq => owner_acquire ?_ r hq, .inl ⟨rfl, .inl rfl⟩⟩
    · have := hm _ hrely (((rs (M.schema.view pending s.db)).filter (s.free p)).take n)
        ((List.take_sublist _ _).trans List.filter_sublist) (List.length_take_le _ _)
      rwa [cfg, ← held_acquire] at this
    · intro r hr
      exact (List.mem_filter.mp (List.mem_of_mem_take hr)).2
  | write a k =>
    simp only [Model.exec] at h
    split at h
    · rename_i hfree
      have hown := fun r q (hq : q ≠ p) => owner_acquire (List.all_eq_true.mp hfree) r hq
      split at h
      · rename_i hc
        obtain rfl := Option.some.inj h
        refine .inr ⟨_, rfl, rfl, ?_, hown, .inl ⟨rfl, .inl rfl⟩⟩
        have := (hm _ hrely).1 hc
        rwa [cfg, ← held_acquire] at this
      · rename_i hc
        obtain rfl := Option.some.inj h
        refine .inr ⟨_, rfl, rfl, ?_, hown, .inl ⟨rfl, .inl rfl⟩⟩
        have := ((hm _ hrely).2 (eq_false_of_ne_true hc)).2
        rwa [cfg, ← held_acquire] at this
    · cases h
  | commit k =>
    simp only [Model.exec] at h
    split at h
    · rename_i d hd
      obtain rfl := Option.some.inj h
      obtain ⟨hagree, hinv', hguar, hk⟩ := (hm _ hrely).1 d hd
      refine .inr ⟨_, rfl, rfl, ?_, fun r q hq => owner_release r hq,
        .inr ⟨rfl, M.schema.replay_eq_ok hd, rfl, hinv', hguar, hagree⟩⟩
      rwa [← held_release (s := { s with db := d }) (p := p)] at hk
    · rename_i a ha
      obtain rfl := Option.some.inj h
      refine .inr ⟨_, rfl, rfl, ?_, fun r q hq => owner_release r hq, .inl ⟨rfl, .inl rfl⟩⟩
      have := ((hm _ hrely).2 a ha).2
      rwa [← held_release (s := s) (p := p)] at this
  | rollback k =>
    obtain rfl := Option.some.inj h
    refine .inr ⟨_, rfl, rfl, ?_, fun r q hq => owner_release r hq, .inl ⟨rfl, .inl rfl⟩⟩
    have := hm _ hrely
    rwa [← held_release (s := s) (p := p)] at this
  | note n k =>
    obtain rfl := Option.some.inj h
    obtain ⟨hnoted, hk⟩ := hm _ hrely
    exact .inr ⟨_, rfl, rfl, hk, fun _ _ _ => Iff.rfl, .inl ⟨rfl, .inr ⟨n, rfl, hnoted⟩⟩⟩

omit [DecidableEq R] in
/-- A lock that is still held protects what its owner knows. -/
theorem Safe.meets_of_owner (h : G.Safe s) {q : ℕ} {pr : Proc R A I N D X C}
    (hq : s.proc q = some pr) (howner : ∀ r, s'.owner r = some q ↔ s.owner r = some q)
    (hinv : G.inv s'.db) (hevolves : G.evolves s.db s'.db)
    (hagree : ∀ r ∈ s.held q, G.agree r s.db s'.db) : G.Meets pr (cfg s' q pr) := by
  have hheld : s'.held q = s.held q := by
    ext r
    exact howner r
  have := (h.meets q pr hq).rely (d := s'.db) ⟨hinv, hevolves, hagree⟩
  rwa [cfg, hheld]

omit [DecidableEq R] in
/-- A process that ends leaves a safe state. -/
theorem Safe.drop (h : G.Safe s) (p : ℕ) : G.Safe (s.drop p) where
  inv := h.inv
  meets := by
    intro q pr hq
    by_cases hqp : q = p
    · subst hqp
      simp at hq
    · rw [Sys.proc_drop, Function.update_of_ne hqp] at hq
      exact h.meets_of_owner hq (fun r => owner_release r hqp) h.inv (G.evolves_refl _)
        fun _ _ => G.agree_refl _ _
  owned := by
    intro r q hq
    by_cases hqp : q = p
    · subst hqp
      have : r ∈ (s.release q).held q := hq
      rw [held_release] at this
      exact absurd this (Set.notMem_empty r)
    · rw [Sys.proc_drop, Function.update_of_ne hqp]
      exact h.owned r q ((owner_release r hqp).mp hq)

omit [DecidableEq R] in
/-- A process that goes on leaves a safe state. -/
theorem Safe.advance (h : G.Safe s) {pr pr' : Proc R A I N D X C}
    (ha : G.Advance s s' p pr pr') : G.Safe s' := by
  have hinv : G.inv s'.db := by
    rcases ha.effect with ⟨hdb, -⟩ | ⟨-, -, -, hinv, -⟩
    · rw [hdb]
      exact h.inv
    · exact hinv
  have hevolves : G.evolves s.db s'.db := by
    rcases ha.effect with ⟨hdb, -⟩ | ⟨-, -, -, -, hguar, -⟩
    · rw [hdb]
      exact G.evolves_refl _
    · exact G.guar_evolves _ _ _ _ hguar
  refine ⟨hinv, fun q pr'' hq => ?_, fun r q hq => ?_⟩
  · by_cases hqp : q = p
    · subst hqp
      rw [ha.proc, Function.update_self] at hq
      obtain rfl := Option.some.inj hq
      exact ha.meets
    · rw [ha.proc, Function.update_of_ne hqp] at hq
      refine h.meets_of_owner hq (fun r => ha.owner r q hqp) hinv hevolves fun r hr => ?_
      rcases ha.effect with ⟨hdb, -⟩ | ⟨-, -, -, -, -, hagree⟩
      · rw [hdb]
        exact G.agree_refl _ _
      · refine hagree r fun hp => hqp ?_
        exact Option.some.inj ((show s.owner r = some q from hr).symm.trans hp)
  · by_cases hqp : q = p
    · rw [ha.proc, hqp, Function.update_self]
      rfl
    · rw [ha.proc, Function.update_of_ne hqp]
      exact h.owned r q ((ha.owner r q hqp).mp hq)

/-- **Preservation**: a step from a safe state leads to a safe state. -/
theorem Safe.step (hG : G.Sound) (h : G.Safe s) {a : Act I C E} (hs : M.step a s = some s') :
    G.Safe s' := by
  cases a with
  | spawn p c =>
    simp only [Model.step] at hs
    split at hs
    · rename_i hp
      obtain rfl := Option.some.inj hs
      have hheld : s.held p = ∅ := by
        ext r
        refine ⟨fun hr => ?_, fun hr => absurd hr (Set.notMem_empty r)⟩
        have := h.owned r p hr
        rw [hp] at this
        cases this
      refine ⟨h.inv, fun q pr hq => ?_, fun r q hq => ?_⟩
      · by_cases hqp : q = p
        · subst hqp
          rw [Sys.proc_put, Function.update_self] at hq
          obtain rfl := Option.some.inj hq
          have := hG.body c s.db h.inv
          rwa [← hheld] at this
        · rw [Sys.proc_put, Function.update_of_ne hqp] at hq
          exact h.meets q pr hq
      · by_cases hqp : q = p
        · rw [Sys.proc_put, hqp, Function.update_self]
          rfl
        · rw [Sys.proc_put, Function.update_of_ne hqp]
          exact h.owned r q hq
    · cases hs
  | exec p i =>
    obtain ⟨pr, hp, hexec⟩ := Option.bind_eq_some_iff.mp hs
    obtain rfl | ⟨pr', ha⟩ := exec_cases h.inv (h.meets p pr hp) hexec
    · exact h.drop p
    · exact h.advance ha
  | crash p =>
    obtain ⟨_, _, rfl⟩ := Option.map_eq_some_iff.mp hs
    exact h.drop p
  | env e =>
    obtain rfl := Option.some.inj hs
    have hinv := hG.env_inv e _ h.inv
    exact ⟨hinv, fun q pr hq => h.meets_of_owner hq (fun _ => Iff.rfl) hinv
      (hG.env_evolves e _) fun r _ => hG.env_agree e r _, h.owned⟩

omit [DecidableEq R] in
/-- A state in which nothing runs is safe. -/
theorem Safe.idle {d : D} (h : G.inv d) : G.Safe (Model.idle d : Sys R A I N D X C) :=
  ⟨h, fun _ _ hp => (nomatch hp), fun _ _ hr => (nomatch hr)⟩

/-- **Soundness**: every reachable state is safe. -/
theorem Sound.safe (hG : G.Sound) {d₀ : D} (h₀ : G.inv d₀) (h : M.Reachable d₀ s) :
    G.Safe s := by
  induction h with
  | start => exact .idle h₀
  | step _ _ hs ih => exact ih.step hG hs

/-- **Inversion of a step, contents**: nothing changes, or the outside changes
it, or one process commits. -/
theorem Safe.step_db (h : G.Safe s) {a : Act I C E} (hs : M.step a s = some s') :
    s'.db = s.db ∨ (∃ e, a = .env e ∧ s'.db = M.env e s.db) ∨
      ∃ pr, Model.Commits a s pr ∧ s'.db = M.schema.view pr.pending s.db ∧
        G.guar pr.call pr.mark s.db s'.db := by
  cases a with
  | spawn p c =>
    simp only [Model.step] at hs
    split at hs
    · exact .inl (by rw [← Option.some.inj hs, Sys.db_put])
    · cases hs
  | exec p i =>
    obtain ⟨pr, hp, hexec⟩ := Option.bind_eq_some_iff.mp hs
    obtain rfl | ⟨pr', ha⟩ := exec_cases h.inv (h.meets p pr hp) hexec
    · exact .inl rfl
    · rcases ha.effect with ⟨hdb, -⟩ | ⟨hcommit, hview, -, -, hguar, -⟩
      · exact .inl hdb
      · exact .inr (.inr ⟨pr, ⟨p, i, rfl, hp, hcommit⟩, hview, hguar⟩)
  | crash p =>
    obtain ⟨_, _, rfl⟩ := Option.map_eq_some_iff.mp hs
    exact .inl rfl
  | env e => exact .inr (.inl ⟨e, rfl, (Option.some.inj hs).symm ▸ rfl⟩)

/-- A process leaves alone what the locks that it does not hold protect. -/
theorem Safe.exec_agree (h : G.Safe s) {p : ℕ} {i : I} (hs : M.step (.exec p i) s = some s')
    {r : R} (hr : r ∉ s.held p) : G.agree r s.db s'.db := by
  obtain ⟨pr, hp, hexec⟩ := Option.bind_eq_some_iff.mp hs
  obtain rfl | ⟨pr', ha⟩ := exec_cases h.inv (h.meets p pr hp) hexec
  · exact G.agree_refl _ _
  · rcases ha.effect with ⟨hdb, -⟩ | ⟨-, -, -, -, -, hagree⟩
    · rw [hdb]
      exact G.agree_refl _ _
    · exact hagree r hr

/-- **Inversion of a step, processes**: a process is as it was, or new, or it
took the step. -/
theorem Safe.step_proc (h : G.Safe s) {a : Act I C E} (hs : M.step a s = some s') {q : ℕ}
    {pr' : Proc R A I N D X C} (hq : s'.proc q = some pr') :
    s.proc q = some pr' ∨ (∃ c, a = .spawn q c ∧ pr' = ⟨c, M.body c, [], none⟩) ∨
      ∃ i pr, a = .exec q i ∧ s.proc q = some pr ∧ G.Advance s s' q pr pr' := by
  have hdrop : ∀ p, (s.drop p).proc q = some pr' → s.proc q = some pr' := by
    intro p hp
    by_cases hqp : q = p
    · subst hqp
      simp at hp
    · rwa [Sys.proc_drop, Function.update_of_ne hqp] at hp
  cases a with
  | spawn p c =>
    simp only [Model.step] at hs
    split at hs
    · obtain rfl := Option.some.inj hs
      by_cases hqp : q = p
      · subst hqp
        rw [Sys.proc_put, Function.update_self] at hq
        exact .inr (.inl ⟨c, rfl, (Option.some.inj hq).symm⟩)
      · rw [Sys.proc_put, Function.update_of_ne hqp] at hq
        exact .inl hq
    · cases hs
  | exec p i =>
    obtain ⟨pr, hp, hexec⟩ := Option.bind_eq_some_iff.mp hs
    obtain rfl | ⟨pr'', ha⟩ := exec_cases h.inv (h.meets p pr hp) hexec
    · exact .inl (hdrop p hq)
    · by_cases hqp : q = p
      · subst hqp
        obtain rfl : pr'' = pr' := by
          rw [ha.proc, Function.update_self] at hq
          exact Option.some.inj hq
        exact .inr (.inr ⟨i, pr, rfl, hp, ha⟩)
      · rw [ha.proc, Function.update_of_ne hqp] at hq
        exact .inl hq
  | crash p =>
    obtain ⟨_, _, rfl⟩ := Option.map_eq_some_iff.mp hs
    exact .inl (hdrop p hq)
  | env e =>
    obtain rfl := Option.some.inj hs
    exact .inl hq

omit [DecidableEq R] in
/-- A process at a statement whose constraints fail: the statement is not one of
the sound ones. -/
theorem Safe.write_sound (h : G.Safe s) {pr : Proc R A I N D X C} (hp : s.proc p = some pr)
    {a : A} {k : Bool → Prog R A I N D X Unit} (hk : pr.prog = .write a k) (ha : G.sound a) :
    M.schema.check a (M.schema.view pr.pending s.db) = true := by
  have hm := h.meets p pr hp
  rw [Meets, hk] at hm
  by_contra hc
  exact ((hm s.db (G.rely_refl h.inv)).2 (eq_false_of_ne_true hc)).1 ha

omit [DecidableEq R] in
/-- A commit that fails names a statement that is not one of the sound ones. -/
theorem Safe.commit_sound (h : G.Safe s) {pr : Proc R A I N D X C} (hp : s.proc p = some pr)
    {k : Option A → Prog R A I N D X Unit} (hk : pr.prog = .commit k) {a : A} (ha : G.sound a) :
    M.schema.replay pr.pending s.db ≠ .error a := by
  have hm := h.meets p pr hp
  rw [Meets, hk] at hm
  exact fun he => ((hm s.db (G.rely_refl h.inv)).2 a he).1 ha

end Exec

end Discipline

end FinanceIntelligence
