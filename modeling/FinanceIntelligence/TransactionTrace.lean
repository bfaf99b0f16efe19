import FinanceIntelligence.Transaction

/-!
# What a process has done on the way to its outcome

A general layer over `Transaction`. `Prog.Traced` follows a program on all its ways, whatever
the database answers: the statements that are pending, the last note, and whether a transaction
that wrote something went through. It says what is the case at each commit and with each
outcome.

`Model.Through` are the states of a run in which a process is on its way through a part of its
program, together with what is left of the part and whether the process changed the contents:
**what all ways of a program have in common holds in every run** (`Through.traced`).
-/

namespace FinanceIntelligence

variable {R A I N D X C E α β : Type}

namespace Prog

/-- What a process has run so far. -/
structure Trace (A N : Type) where
  /-- statements run but not committed -/
  pending : List A := []
  /-- the last note -/
  mark : Option N := none
  /-- a transaction with statements went through -/
  committed : Bool := false

/-- On every way through the program, `K` holds at each commit, `Q` of what it returns and `F` of
what it raises, if `V` holds of the contents that a transaction finds before it writes. -/
def Traced (V : D → Prop) (K : Trace A N → Prop) (Q : α → Trace A N → Prop)
    (F : X → Trace A N → Prop) : Prog R A I N D X α → Trace A N → Prop
  | .ret a, τ => Q a τ
  | .raise x, τ => F x τ
  | .ask k, τ => ∀ i, (k i).Traced V K Q F τ
  | .read k, τ => ∀ d, (τ.pending = [] → V d) → (k d).Traced V K Q F τ
  | .lock _ _ k, τ => ∀ b, (k b).Traced V K Q F τ
  | .lockSkip _ _ k, τ => ∀ l, (k l).Traced V K Q F τ
  | .write a k, τ =>
    (k true).Traced V K Q F { τ with pending := τ.pending ++ [a] } ∧ (k false).Traced V K Q F τ
  | .commit k, τ =>
    K τ ∧
      (k none).Traced V K Q F
        { τ with pending := [], committed := τ.committed || !τ.pending.isEmpty } ∧
      ∀ a, (k (some a)).Traced V K Q F { τ with pending := [] }
  | .rollback k, τ => k.Traced V K Q F { τ with pending := [] }
  | .note n k, τ => k.Traced V K Q F { τ with mark := some n }

variable {V : D → Prop} {K : Trace A N → Prop} {Q : α → Trace A N → Prop}
  {F : X → Trace A N → Prop}

@[simp] theorem traced_ret {a : α} {τ : Trace A N} :
    (.ret a : Prog R A I N D X α).Traced V K Q F τ ↔ Q a τ := Iff.rfl

@[simp] theorem traced_raise {x : X} {τ : Trace A N} :
    (.raise x : Prog R A I N D X α).Traced V K Q F τ ↔ F x τ := Iff.rfl

/-- One part after the other. -/
@[simp] theorem traced_bind {p : Prog R A I N D X β} {f : β → Prog R A I N D X α} :
    (p.bind f).Traced V K Q F = p.Traced V K (fun b => (f b).Traced V K Q F) F := by
  funext τ
  induction p generalizing τ with
  | ret a => rfl
  | raise x => rfl
  | ask k ih => simp only [Prog.bind, Traced, ih]
  | read k ih => simp only [Prog.bind, Traced, ih]
  | lock r q k ih => simp only [Prog.bind, Traced, ih]
  | lockSkip rs n k ih => simp only [Prog.bind, Traced, ih]
  | write a k ih => simp only [Prog.bind, Traced, ih]
  | commit k ih => simp only [Prog.bind, Traced, ih]
  | rollback k ih => simp only [Prog.bind, Traced, ih]
  | note n k ih => simp only [Prog.bind, Traced, ih]

/-- A part and its handler. -/
@[simp] theorem traced_tryCatch {p : Prog R A I N D X α} {h : X → Prog R A I N D X α} :
    (p.tryCatch h).Traced V K Q F = p.Traced V K Q fun x => (h x).Traced V K Q F := by
  funext τ
  induction p generalizing τ with
  | ret a => rfl
  | raise x => rfl
  | ask k ih => simp only [Prog.tryCatch, Traced, ih]
  | read k ih => simp only [Prog.tryCatch, Traced, ih]
  | lock r q k ih => simp only [Prog.tryCatch, Traced, ih]
  | lockSkip rs n k ih => simp only [Prog.tryCatch, Traced, ih]
  | write a k ih => simp only [Prog.tryCatch, Traced, ih]
  | commit k ih => simp only [Prog.tryCatch, Traced, ih]
  | rollback k ih => simp only [Prog.tryCatch, Traced, ih]
  | note n k ih => simp only [Prog.tryCatch, Traced, ih]

/-- What always holds holds on every way. -/
theorem traced_of_all (hK : ∀ τ, K τ) (hQ : ∀ a τ, Q a τ) (hF : ∀ x τ, F x τ)
    (p : Prog R A I N D X α) (τ : Trace A N) : p.Traced V K Q F τ := by
  induction p generalizing τ with
  | ret a => exact hQ a τ
  | raise x => exact hF x τ
  | ask k ih => exact fun i => ih i τ
  | read k ih => exact fun d _ => ih d τ
  | lock r q k ih => exact fun b => ih b τ
  | lockSkip rs n k ih => exact fun l => ih l τ
  | write a k ih => exact ⟨ih true _, ih false _⟩
  | commit k ih => exact ⟨hK τ, ih none _, fun a => ih (some a) _⟩
  | rollback k ih => exact ih _
  | note n k ih => exact ih _

/-- Every note that the program may make is of a kind. -/
def NotesOnly (P : N → Prop) : Prog R A I N D X α → Prop
  | .ret _ => True
  | .raise _ => True
  | .ask k => ∀ i, (k i).NotesOnly P
  | .read k => ∀ d, (k d).NotesOnly P
  | .lock _ _ k => ∀ b, (k b).NotesOnly P
  | .lockSkip _ _ k => ∀ l, (k l).NotesOnly P
  | .write _ k => ∀ b, (k b).NotesOnly P
  | .commit k => ∀ e, (k e).NotesOnly P
  | .rollback k => k.NotesOnly P
  | .note n k => P n ∧ k.NotesOnly P

theorem NotesOnly.bind {P : N → Prop} {p : Prog R A I N D X α} {f : α → Prog R A I N D X β}
    (hp : p.NotesOnly P) (hf : ∀ a, (f a).NotesOnly P) : (p.bind f).NotesOnly P := by
  induction p with
  | ret a => exact hf a
  | raise x => trivial
  | ask k ih => exact fun i => ih i (hp i)
  | read k ih => exact fun d => ih d (hp d)
  | lock r q k ih => exact fun b => ih b (hp b)
  | lockSkip rs n k ih => exact fun l => ih l (hp l)
  | write a k ih => exact fun b => ih b (hp b)
  | commit k ih => exact fun e => ih e (hp e)
  | rollback k ih => exact ih hp
  | note n k ih => exact ⟨hp.1, ih hp.2⟩

/-- A transaction went through, and the last note is of the kind. -/
structure Trace.Settled (P : N → Prop) (τ : Trace A N) : Prop where
  /-- a transaction went through -/
  committed : τ.committed = true
  /-- the last note -/
  mark : ∀ n, τ.mark = some n → P n

/-- What has gone through has gone through, whatever comes after it. -/
theorem NotesOnly.traced {P : N → Prop} {p : Prog R A I N D X α} (hp : p.NotesOnly P)
    (hK : ∀ τ : Trace A N, τ.Settled P → K τ) (hQ : ∀ a (τ : Trace A N), τ.Settled P → Q a τ)
    (hF : ∀ x (τ : Trace A N), τ.Settled P → F x τ) {τ : Trace A N} (hτ : τ.Settled P) :
    p.Traced V K Q F τ := by
  induction p generalizing τ with
  | ret a => exact hQ a τ hτ
  | raise x => exact hF x τ hτ
  | ask k ih => exact fun i => ih i (hp i) hτ
  | read k ih => exact fun d _ => ih d (hp d) hτ
  | lock r q k ih => exact fun b => ih b (hp b) hτ
  | lockSkip rs n k ih => exact fun l => ih l (hp l) hτ
  | write a k ih => exact ⟨ih true (hp true) ⟨hτ.committed, hτ.mark⟩, ih false (hp false) hτ⟩
  | commit k ih =>
    refine ⟨hK τ hτ, ih none (hp none) ⟨?_, hτ.mark⟩, fun a => ih _ (hp _) ⟨hτ.committed, hτ.mark⟩⟩
    rw [hτ.committed, Bool.true_or]
  | rollback k ih => exact ih hp ⟨hτ.committed, hτ.mark⟩
  | note n k ih =>
    refine ih hp.2 ⟨hτ.committed, fun n' hn' => ?_⟩
    obtain rfl := Option.some.inj hn'
    exact hp.1

/-- The program has an instruction to run. -/
def Goes : Prog R A I N D X α → Prop
  | .ret _ | .raise _ => False
  | _ => True

theorem Leads.goes {p p' : Prog R A I N D X α} (h : p.Leads p') : p.Goes := by
  cases h <;> trivial

end Prog

namespace Model

variable (M : Model R A I N D X C E)

/-- What one instruction of the process `p` leaves of a program, with the statements `pending`. -/
def cont (p : ℕ) (i : I) (s : Sys R A I N D X C) (pending : List A) :
    Prog R A I N D X α → Prog R A I N D X α
  | .ret a => .ret a
  | .raise x => .raise x
  | .ask k => k i
  | .read k => k (M.schema.view pending s.db)
  | .lock _ q k => k (q (M.schema.view pending s.db))
  | .lockSkip rs n k => k (((rs (M.schema.view pending s.db)).filter (s.free p)).take n)
  | .write a k => k (M.schema.check a (M.schema.view pending s.db))
  | .commit k =>
    match M.schema.replay pending s.db with
    | .ok _ => k none
    | .error a => k (some a)
  | .rollback k => k
  | .note _ k => k

variable {M} [DecidableEq R] {V : D → Prop} {K : Prog.Trace A N → Prop}
  {Q : α → Prog.Trace A N → Prop} {F : X → Prog.Trace A N → Prop}

/-- **One instruction of a part of a program**: the process goes on with what is left of the part,
what is traced of the part is traced of the rest, and only a transaction with statements that
goes through changes the contents. -/
theorem exec_traced {p : ℕ} {i : I} {s s' : Sys R A I N D X C} {c : C}
    {prog : Prog R A I N D X α} {k : α → Prog R A I N D X Unit} {pending : List A}
    {mark : Option N} {committed : Bool} (hV : V s.db) (hgoes : prog.Goes)
    (h : M.exec p i s ⟨c, prog.bind k, pending, mark⟩ = some s')
    (ht : prog.Traced V K Q F ⟨pending, mark, committed⟩) :
    ∃ pending' mark' committed',
      s'.proc p = some ⟨c, (M.cont p i s pending prog).bind k, pending', mark'⟩ ∧
      (M.cont p i s pending prog).Traced V K Q F ⟨pending', mark', committed'⟩ ∧
      (committed = true → committed' = true) ∧ (s'.db = s.db ∨ committed' = true) := by
  cases prog with
  | ret a => exact hgoes.elim
  | raise x => exact hgoes.elim
  | ask k =>
    obtain rfl := Option.some.inj h
    exact ⟨_, _, _, Function.update_self .., ht i, id, .inl rfl⟩
  | read k =>
    obtain rfl := Option.some.inj h
    refine ⟨_, _, _, Function.update_self .., ht _ fun hpending => ?_, id, .inl rfl⟩
    dsimp only at hpending
    rw [hpending]
    exact hV
  | lock r q k =>
    simp only [Prog.bind, exec] at h
    split at h
    · rename_i hq
      split at h
      · obtain rfl := Option.some.inj h
        refine ⟨_, _, _, ?_, ht _, id, .inl rfl⟩
        simp [cont, hq]
      · cases h
    · rename_i hq
      obtain rfl := Option.some.inj h
      refine ⟨_, _, _, ?_, ht _, id, .inl rfl⟩
      simp [cont, hq]
  | lockSkip rs n k =>
    obtain rfl := Option.some.inj h
    exact ⟨_, _, _, Function.update_self .., ht _, id, .inl rfl⟩
  | write a k =>
    simp only [Prog.bind, exec] at h
    split at h
    · split at h
      · rename_i hcheck
        obtain rfl := Option.some.inj h
        simp only [cont, hcheck]
        exact ⟨_, _, _, Function.update_self .., ht.1, id, .inl rfl⟩
      · rename_i hcheck
        obtain rfl := Option.some.inj h
        simp only [cont, eq_false_of_ne_true hcheck]
        exact ⟨_, _, _, Function.update_self .., ht.2, id, .inl rfl⟩
    · cases h
  | commit k =>
    obtain ⟨-, hok, hfail⟩ := ht
    simp only [Prog.bind, exec] at h
    split at h
    · rename_i d hd
      obtain rfl := Option.some.inj h
      simp only [cont, hd]
      refine ⟨_, _, _, Function.update_self .., hok, fun hc => ?_, ?_⟩
      · dsimp only
        rw [hc, Bool.true_or]
      · -- a transaction without statements changes nothing
        cases pending with
        | nil =>
          cases hd
          exact .inl rfl
        | cons a l => exact .inr (Bool.or_true _)
    · rename_i a ha
      obtain rfl := Option.some.inj h
      simp only [cont, ha]
      exact ⟨_, _, _, Function.update_self .., hfail a, id, .inl rfl⟩
  | rollback k =>
    obtain rfl := Option.some.inj h
    exact ⟨_, _, _, Function.update_self .., ht, id, .inl rfl⟩
  | note n k =>
    obtain rfl := Option.some.inj h
    exact ⟨_, _, _, Function.update_self .., ht, id, .inl rfl⟩

/-- A process keeps its last note until it makes another one. -/
theorem exec_mark {p : ℕ} {i : I} {s s' : Sys R A I N D X C} {pr pr' : Proc R A I N D X C}
    (h : M.exec p i s pr = some s') (hp : s'.proc p = some pr') :
    pr'.mark = pr.mark ∨ ∃ n k, pr.prog = .note n k ∧ pr'.mark = some n := by
  obtain ⟨c, prog, pending, mark⟩ := pr
  -- the process that is put back is the one that goes on
  have hput {s₁ : Sys R A I N D X C} {pr₁ : Proc R A I N D X C}
      (h : some (s₁.put p pr₁) = some s') : pr' = pr₁ := by
    obtain rfl := Option.some.inj h
    rw [Sys.proc_put, Function.update_self] at hp
    exact (Option.some.inj hp).symm
  cases prog with
  | ret a =>
    obtain rfl := Option.some.inj h
    simp at hp
  | raise x =>
    obtain rfl := Option.some.inj h
    simp at hp
  | ask k => exact .inl (by rw [hput h])
  | read k => exact .inl (by rw [hput h])
  | lock r q k =>
    simp only [exec] at h
    split at h
    · split at h
      · exact .inl (by rw [hput h])
      · cases h
    · exact .inl (by rw [hput h])
  | lockSkip rs n k => exact .inl (by rw [hput h])
  | write a k =>
    simp only [exec] at h
    split at h
    · split at h
      · exact .inl (by rw [hput h])
      · exact .inl (by rw [hput h])
    · cases h
  | commit k =>
    simp only [exec] at h
    split at h
    · exact .inl (by rw [hput h])
    · exact .inl (by rw [hput h])
  | rollback k => exact .inl (by rw [hput h])
  | note n k => exact .inr ⟨n, k, rfl, by rw [hput h]⟩

/-- **What all ways of the programs have in common holds of every process of a run**, if `V` holds
of the contents now and held of them before whenever it does. -/
theorem Reachable.traced {d₀ : D} {K : C → Prog.Trace A N → Prop}
    (hbody : ∀ c, (M.body c).Traced V (K c) (fun _ _ => True) (fun _ _ => True) {})
    (hback : ∀ {s s' : Sys R A I N D X C} {a : Act I C E}, M.Reachable d₀ s →
      M.step a s = some s' → V s'.db → V s.db)
    {s : Sys R A I N D X C} (h : M.Reachable d₀ s) (hV : V s.db) {p : ℕ}
    {pr : Proc R A I N D X C} (hp : s.proc p = some pr) : ∃ committed,
      pr.prog.Traced V (K pr.call) (fun _ _ => True) (fun _ _ => True)
        ⟨pr.pending, pr.mark, committed⟩ := by
  refine h.invariant (P := fun s => V s.db → ∀ p pr, s.proc p = some pr → ∃ committed,
    pr.prog.Traced V (K pr.call) (fun _ _ => True) (fun _ _ => True)
      ⟨pr.pending, pr.mark, committed⟩) (fun _ => nofun) ?_ hV p pr hp
  intro s s' a hreach ih _ hs hV' p pr hp
  have hV := hback hreach hs hV'
  replace ih := ih hV
  cases a with
  | spawn q c =>
    simp only [Model.step] at hs
    split at hs
    · obtain rfl := Option.some.inj hs
      by_cases hpq : p = q
      · subst hpq
        rw [Sys.proc_put, Function.update_self] at hp
        cases hp
        exact ⟨false, hbody c⟩
      · rw [Sys.proc_put, Function.update_of_ne hpq] at hp
        exact ih p pr hp
    · cases hs
  | exec q i =>
    obtain ⟨pr₀, hpr₀, hexec⟩ := Option.bind_eq_some_iff.mp hs
    by_cases hpq : p = q
    · subst hpq
      obtain ⟨committed, ht⟩ := ih p pr₀ hpr₀
      obtain ⟨c, prog, pending, mark⟩ := pr₀
      by_cases hgoes : prog.Goes
      · have hexec' : M.exec p i s ⟨c, prog.bind .ret, pending, mark⟩ = some s' := by
          rw [Prog.bind_ret]
          exact hexec
        obtain ⟨pending', mark', committed', hproc, ht', -⟩ := exec_traced hV hgoes hexec' ht
        rw [Prog.bind_ret] at hproc
        cases hp.symm.trans hproc
        exact ⟨committed', ht'⟩
      · -- the process ends
        cases prog with
        | ret a =>
          obtain rfl := Option.some.inj hexec
          simp at hp
        | raise x =>
          obtain rfl := Option.some.inj hexec
          simp at hp
        | _ => exact absurd trivial hgoes
    · rw [exec_proc_ne hpq hexec] at hp
      exact ih p pr hp
  | crash q =>
    obtain ⟨pr₀, hpr₀, rfl⟩ := Option.map_eq_some_iff.mp hs
    by_cases hpq : p = q
    · simp [hpq] at hp
    · rw [Sys.proc_drop, Function.update_of_ne hpq] at hp
      exact ih p pr hp
  | env e =>
    obtain rfl := Option.some.inj hs
    exact ih p pr hp

variable (M) in
/-- In a run from `d₀` the process `p` was started with the call `c` and is on its way through
`body`: what is left of it, and whether a step of `p` has changed the contents. -/
inductive Through (d₀ : D) (p : ℕ) (c : C) (body : Prog R A I N D X α) :
    Prog R A I N D X α → Prop → Sys R A I N D X C → Prop where
  /-- the call arrives -/
  | start {s s' : Sys R A I N D X C} :
      M.Reachable d₀ s → M.step (.spawn p c) s = some s' → Through d₀ p c body body False s'
  /-- an instruction of the part -/
  | own {rest : Prog R A I N D X α} {touched : Prop} {s s' : Sys R A I N D X C} {i : I}
      {pr : Proc R A I N D X C} :
      Through d₀ p c body rest touched s → rest.Goes → s.proc p = some pr →
        M.step (.exec p i) s = some s' →
        Through d₀ p c body (M.cont p i s pr.pending rest) (touched ∨ s'.db ≠ s.db) s'
  /-- something else happens -/
  | other {rest : Prog R A I N D X α} {touched : Prop} {s s' : Sys R A I N D X C}
      {a : Act I C E} :
      Through d₀ p c body rest touched s → (∀ i, a ≠ .exec p i) → a ≠ .crash p →
        M.step a s = some s' → Through d₀ p c body rest touched s'

/-- A step that is not its own leaves a running process alone. -/
theorem step_proc_other {p : ℕ} {a : Act I C E} {s s' : Sys R A I N D X C}
    {pr : Proc R A I N D X C} (hp : s.proc p = some pr) (hown : ∀ i, a ≠ .exec p i)
    (hcrash : a ≠ .crash p) (hs : M.step a s = some s') : s'.proc p = some pr := by
  cases a with
  | spawn q c =>
    simp only [Model.step] at hs
    split at hs
    · rename_i hq
      obtain rfl := Option.some.inj hs
      have hpq : p ≠ q := fun hpq => by rw [hpq, hq] at hp; cases hp
      rw [Sys.proc_put, Function.update_of_ne hpq, hp]
    · cases hs
  | exec q i =>
    obtain ⟨pr₀, -, hexec⟩ := Option.bind_eq_some_iff.mp hs
    have hpq : p ≠ q := fun hpq => hown i (by rw [hpq])
    rw [exec_proc_ne hpq hexec, hp]
  | crash q =>
    obtain ⟨_, -, rfl⟩ := Option.map_eq_some_iff.mp hs
    have hpq : p ≠ q := fun hpq => hcrash (by rw [hpq])
    rw [Sys.proc_drop, Function.update_of_ne hpq, hp]
  | env e =>
    obtain rfl := Option.some.inj hs
    exact hp

theorem Through.reachable {d₀ : D} {p : ℕ} {c : C} {body rest : Prog R A I N D X α}
    {touched : Prop} {s : Sys R A I N D X C} (h : M.Through d₀ p c body rest touched s) :
    M.Reachable d₀ s := by
  induction h with
  | start h hs => exact .step h trivial hs
  | own _ _ _ hs ih => exact .step ih trivial hs
  | other _ _ _ hs ih => exact .step ih trivial hs

/-- **What all ways of a part have in common holds in every run** in which a process is on its way
through it, if `V` holds of the contents now and held of them before whenever it does. -/
theorem Through.traced {d₀ : D} {p : ℕ} {c : C} {body rest : Prog R A I N D X α} {touched : Prop}
    {s : Sys R A I N D X C} {k : α → Prog R A I N D X Unit} (hbody : M.body c = body.bind k)
    (hback : ∀ {s s' : Sys R A I N D X C} {a : Act I C E}, M.Reachable d₀ s →
      M.step a s = some s' → V s'.db → V s.db)
    (ht : body.Traced V K Q F {}) (h : M.Through d₀ p c body rest touched s) (hV : V s.db) :
    ∃ pending mark committed, s.proc p = some ⟨c, rest.bind k, pending, mark⟩ ∧
      rest.Traced V K Q F ⟨pending, mark, committed⟩ ∧ (touched → committed = true) := by
  induction h with
  | @start s s' _ hs =>
    simp only [Model.step] at hs
    split at hs
    · obtain rfl := Option.some.inj hs
      refine ⟨[], none, false, ?_, ht, False.elim⟩
      rw [Sys.proc_put, Function.update_self, hbody]
    · cases hs
  | @own rest touched s s' i pr h hgoes hp hs ih =>
    have hV' := hback h.reachable hs hV
    obtain ⟨pending, mark, committed, hproc, hrest, htouched⟩ := ih hV'
    obtain rfl := Option.some.inj (hp.symm.trans hproc)
    obtain ⟨pr₀, hpr₀, hexec⟩ := Option.bind_eq_some_iff.mp hs
    obtain rfl := Option.some.inj (hproc.symm.trans hpr₀)
    obtain ⟨pending', mark', committed', hproc', hrest', hmono, hdb⟩ :=
      exec_traced hV' hgoes hexec hrest
    refine ⟨pending', mark', committed', hproc', hrest', fun h => ?_⟩
    rcases h with h | h
    · exact hmono (htouched h)
    · exact hdb.resolve_left h
  | other h hown hcrash hs ih =>
    obtain ⟨pending, mark, committed, hproc, hrest, htouched⟩ := ih (hback h.reachable hs hV)
    exact ⟨pending, mark, committed, step_proc_other hproc hown hcrash hs, hrest, htouched⟩

/-- A process on its way through a part serves its call. -/
theorem Through.proc {d₀ : D} {p : ℕ} {c : C} {body rest : Prog R A I N D X α} {touched : Prop}
    {s : Sys R A I N D X C} {k : α → Prog R A I N D X Unit} (hbody : M.body c = body.bind k)
    (h : M.Through d₀ p c body rest touched s) :
    ∃ pending mark, s.proc p = some ⟨c, rest.bind k, pending, mark⟩ := by
  obtain ⟨pending, mark, _, hproc, -⟩ := h.traced (V := fun _ => True) (K := fun _ => True)
    (Q := fun _ _ => True) (F := fun _ _ => True) hbody (fun _ _ _ => trivial)
    (Prog.traced_of_all (fun _ => trivial) (fun _ _ => trivial) (fun _ _ => trivial) body {})
    trivial
  exact ⟨pending, mark, hproc⟩

/-- The process `p` runs its instructions on its way through `rest`, each with its outside
answer; `none` if it cannot. -/
def runThrough (M : Model R A I N D X C E) (p : ℕ) :
    List I → Prog R A I N D X α → Sys R A I N D X C →
      Option (Prog R A I N D X α × Sys R A I N D X C)
  | [], rest, s => some (rest, s)
  | _ :: _, .ret _, _ | _ :: _, .raise _, _ => none
  | i :: is, rest, s =>
    (s.proc p).bind fun pr =>
      (M.step (.exec p i) s).bind fun s' => runThrough M p is (M.cont p i s pr.pending rest) s'

/-- Instructions that can be run lead on through the part. -/
theorem Through.of_runThrough {d₀ : D} {p : ℕ} {c : C} {body : Prog R A I N D X α} {l : List I} :
    ∀ {rest rest' : Prog R A I N D X α} {touched : Prop} {s s' : Sys R A I N D X C},
      M.Through d₀ p c body rest touched s → M.runThrough p l rest s = some (rest', s') →
      ∃ touched', M.Through d₀ p c body rest' touched' s' := by
  induction l with
  | nil =>
    intro rest rest' touched s s' h hrun
    cases rest <;> cases hrun <;> exact ⟨touched, h⟩
  | cons i l ih =>
    intro rest rest' touched s s' h hrun
    cases rest with
    | ret a => cases hrun
    | raise x => cases hrun
    | _ =>
      obtain ⟨pr, hp, hrun⟩ := Option.bind_eq_some_iff.mp hrun
      obtain ⟨s₁, hs, hrun⟩ := Option.bind_eq_some_iff.mp hrun
      exact ih (h.own trivial hp hs) hrun

/-- Only the process `p` is concerned. -/
def IsOf (p : ℕ) : Act I C E → Bool
  | .spawn q _ | .exec q _ | .crash q => q == p
  | .env _ => true

/-- The process `p` runs alone. -/
theorem ReachableBy.alone {d₀ : D} {p : ℕ} {s : Sys R A I N D X C}
    (h : M.ReachableBy (fun a _ => IsOf p a = true) d₀ s) : ∀ q, q ≠ p → s.proc q = none := by
  refine h.invariant (P := fun s => ∀ q, q ≠ p → s.proc q = none) (fun _ _ => rfl) ?_
  intro s s' a _ ih ha hs q hq
  refine step_proc_none hs (ih q hq) ?_
  rintro c rfl
  exact hq (by simpa [IsOf] using ha)

end Model

end FinanceIntelligence
