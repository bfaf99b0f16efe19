import FinanceIntelligence.Transaction

/-!
# Observations

A general layer over `Transaction`: programs that report observations besides
what they note. Three parts:

* `Prog.silent` forgets the observations of a program. A model whose programs
  report observations takes the steps of the model whose programs are silent, so
  that what holds in the runs of the one holds in those of the other.
* `Prog.Along` is what a program reports on each of its ways.
* `Model.Observed` are the states of runs together with what one process has
  reported since it began.
-/

namespace FinanceIntelligence

variable {R A I N O D X C E : Type} {α β : Type}

namespace Prog

/-- Forget the observations. -/
def silent : Prog R A I (N ⊕ O) D X α → Prog R A I N D X α
  | .ret a => .ret a
  | .raise x => .raise x
  | .ask k => .ask fun i => (k i).silent
  | .read k => .read fun d => (k d).silent
  | .lock r q k => .lock r q fun b => (k b).silent
  | .lockSkip rs n k => .lockSkip rs n fun l => (k l).silent
  | .write a k => .write a fun b => (k b).silent
  | .commit k => .commit fun e => (k e).silent
  | .rollback k => .rollback k.silent
  | .note (.inl n) k => .note n k.silent
  | .note (.inr _) k => k.silent

/-- The program, which reports nothing. -/
def observed (O : Type) : Prog R A I N D X α → Prog R A I (N ⊕ O) D X α
  | .ret a => .ret a
  | .raise x => .raise x
  | .ask k => .ask fun i => (k i).observed O
  | .read k => .read fun d => (k d).observed O
  | .lock r q k => .lock r q fun b => (k b).observed O
  | .lockSkip rs n k => .lockSkip rs n fun l => (k l).observed O
  | .write a k => .write a fun b => (k b).observed O
  | .commit k => .commit fun e => (k e).observed O
  | .rollback k => .rollback (k.observed O)
  | .note n k => .note (.inl n) (k.observed O)

/-- Report an observation. -/
def observe (o : O) : Prog R A I (N ⊕ O) D X Unit := .note (.inr o) (.ret ())

@[simp] theorem silent_bind {p : Prog R A I (N ⊕ O) D X α} {f : α → Prog R A I (N ⊕ O) D X β} :
    (p.bind f).silent = p.silent.bind fun a => (f a).silent := by
  induction p with
  | ret a => rfl
  | raise x => rfl
  | ask k ih => simp only [Prog.bind, silent, ih]
  | read k ih => simp only [Prog.bind, silent, ih]
  | lock r q k ih => simp only [Prog.bind, silent, ih]
  | lockSkip rs n k ih => simp only [Prog.bind, silent, ih]
  | write a k ih => simp only [Prog.bind, silent, ih]
  | commit k ih => simp only [Prog.bind, silent, ih]
  | rollback k ih => simp only [Prog.bind, silent, ih]
  | note n k ih =>
    cases n with
    | inl n => simp only [Prog.bind, silent, ih]
    | inr o => exact ih

@[simp] theorem silent_tryCatch {p : Prog R A I (N ⊕ O) D X α}
    {h : X → Prog R A I (N ⊕ O) D X α} :
    (p.tryCatch h).silent = p.silent.tryCatch fun x => (h x).silent := by
  induction p with
  | ret a => rfl
  | raise x => rfl
  | ask k ih => simp only [Prog.tryCatch, silent, ih]
  | read k ih => simp only [Prog.tryCatch, silent, ih]
  | lock r q k ih => simp only [Prog.tryCatch, silent, ih]
  | lockSkip rs n k ih => simp only [Prog.tryCatch, silent, ih]
  | write a k ih => simp only [Prog.tryCatch, silent, ih]
  | commit k ih => simp only [Prog.tryCatch, silent, ih]
  | rollback k ih => simp only [Prog.tryCatch, silent, ih]
  | note n k ih =>
    cases n with
    | inl n => simp only [Prog.tryCatch, silent, ih]
    | inr o => exact ih

@[simp] theorem silent_observed {p : Prog R A I N D X α} : (p.observed O).silent = p := by
  induction p with
  | ret a => rfl
  | raise x => rfl
  | ask k ih => simp only [observed, silent, ih]
  | read k ih => simp only [observed, silent, ih]
  | lock r q k ih => simp only [observed, silent, ih]
  | lockSkip rs n k ih => simp only [observed, silent, ih]
  | write a k ih => simp only [observed, silent, ih]
  | commit k ih => simp only [observed, silent, ih]
  | rollback k ih => simp only [observed, silent, ih]
  | note n k ih => simp only [observed, silent, ih]

@[simp] theorem observed_bind {p : Prog R A I N D X α} {f : α → Prog R A I N D X β} :
    (p.bind f).observed O = (p.observed O).bind fun a => (f a).observed O := by
  induction p with
  | ret a => rfl
  | raise x => rfl
  | ask k ih => simp only [Prog.bind, observed, ih]
  | read k ih => simp only [Prog.bind, observed, ih]
  | lock r q k ih => simp only [Prog.bind, observed, ih]
  | lockSkip rs n k ih => simp only [Prog.bind, observed, ih]
  | write a k ih => simp only [Prog.bind, observed, ih]
  | commit k ih => simp only [Prog.bind, observed, ih]
  | rollback k ih => simp only [Prog.bind, observed, ih]
  | note n k ih => simp only [Prog.bind, observed, ih]

@[simp] theorem silent_ret {a : α} : (ret a : Prog R A I (N ⊕ O) D X α).silent = .ret a := rfl

@[simp] theorem silent_raise {x : X} : (raise x : Prog R A I (N ⊕ O) D X α).silent = .raise x := rfl

@[simp] theorem silent_observe {o : O} :
    (observe o : Prog R A I (N ⊕ O) D X Unit).silent = .ret () := rfl

@[simp] theorem silent_ite {c : Prop} [Decidable c] {p q : Prog R A I (N ⊕ O) D X α} :
    (if c then p else q).silent = if c then p.silent else q.silent := by
  split <;> rfl

/-! ## What a program reports -/

/-- After the reports `l`, each further report leads to a list for which `P` holds,
on every way of the program; it returns with `Q` and raises with `E`. -/
def Along (P : List O → Prop) : Prog R A I (N ⊕ O) D X α → (α → List O → Prop) →
    (X → List O → Prop) → List O → Prop
  | .ret a, Q, _, l => Q a l
  | .raise x, _, E, l => E x l
  | .ask k, Q, E, l => ∀ i, (k i).Along P Q E l
  | .read k, Q, E, l => ∀ d, (k d).Along P Q E l
  | .lock _ _ k, Q, E, l => ∀ b, (k b).Along P Q E l
  | .lockSkip _ _ k, Q, E, l => ∀ rs, (k rs).Along P Q E l
  | .write _ k, Q, E, l => ∀ b, (k b).Along P Q E l
  | .commit k, Q, E, l => ∀ e, (k e).Along P Q E l
  | .rollback k, Q, E, l => k.Along P Q E l
  | .note (.inl _) k, Q, E, l => k.Along P Q E l
  | .note (.inr o) k, Q, E, l => P (l ++ [o]) ∧ k.Along P Q E (l ++ [o])

/-- What the next instruction reports. -/
def report : Prog R A I (N ⊕ O) D X α → List O
  | .note (.inr o) _ => [o]
  | _ => []

variable {P : List O → Prop} {l : List O}

@[simp] theorem report_observed {p : Prog R A I N D X α} : (p.observed O).report = [] := by
  cases p <;> rfl

@[simp] theorem along_ret {a : α} {Q : α → List O → Prop} {E : X → List O → Prop} :
    (ret a : Prog R A I (N ⊕ O) D X α).Along P Q E l ↔ Q a l := Iff.rfl

@[simp] theorem along_raise {x : X} {Q : α → List O → Prop} {E : X → List O → Prop} :
    (raise x : Prog R A I (N ⊕ O) D X α).Along P Q E l ↔ E x l := Iff.rfl

@[simp] theorem along_observe {o : O} {Q : Unit → List O → Prop} {E : X → List O → Prop} :
    (observe o : Prog R A I (N ⊕ O) D X Unit).Along P Q E l ↔
      P (l ++ [o]) ∧ Q () (l ++ [o]) := Iff.rfl

/-- One program after the other. -/
@[simp] theorem along_bind {p : Prog R A I (N ⊕ O) D X α} {f : α → Prog R A I (N ⊕ O) D X β}
    {Q : β → List O → Prop} {E : X → List O → Prop} :
    (p.bind f).Along P Q E l ↔ p.Along P (fun a l => (f a).Along P Q E l) E l := by
  induction p generalizing l with
  | ret a => rfl
  | raise x => rfl
  | ask k ih => exact forall_congr' fun i => ih i
  | read k ih => exact forall_congr' fun d => ih d
  | lock r q k ih => exact forall_congr' fun b => ih b
  | lockSkip rs n k ih => exact forall_congr' fun rs => ih rs
  | write a k ih => exact forall_congr' fun b => ih b
  | commit k ih => exact forall_congr' fun e => ih e
  | rollback k ih => exact ih
  | note n k ih =>
    cases n with
    | inl n => exact ih
    | inr o => exact and_congr Iff.rfl ih

/-- A handler after the exceptions of a program. -/
@[simp] theorem along_tryCatch {p : Prog R A I (N ⊕ O) D X α}
    {h : X → Prog R A I (N ⊕ O) D X α} {Q : α → List O → Prop} {E : X → List O → Prop} :
    (p.tryCatch h).Along P Q E l ↔ p.Along P Q (fun x l => (h x).Along P Q E l) l := by
  induction p generalizing l with
  | ret a => rfl
  | raise x => rfl
  | ask k ih => exact forall_congr' fun i => ih i
  | read k ih => exact forall_congr' fun d => ih d
  | lock r q k ih => exact forall_congr' fun b => ih b
  | lockSkip rs n k ih => exact forall_congr' fun rs => ih rs
  | write a k ih => exact forall_congr' fun b => ih b
  | commit k ih => exact forall_congr' fun e => ih e
  | rollback k ih => exact ih
  | note n k ih =>
    cases n with
    | inl n => exact ih
    | inr o => exact and_congr Iff.rfl ih

theorem Along.mono {p : Prog R A I (N ⊕ O) D X α} {Q Q' : α → List O → Prop}
    {E E' : X → List O → Prop} (h : p.Along P Q E l) (hQ : ∀ a l, Q a l → Q' a l)
    (hE : ∀ x l, E x l → E' x l) : p.Along P Q' E' l := by
  induction p generalizing l with
  | ret a => exact hQ a l h
  | raise x => exact hE x l h
  | ask k ih => exact fun i => ih i (h i)
  | read k ih => exact fun d => ih d (h d)
  | lock r q k ih => exact fun b => ih b (h b)
  | lockSkip rs n k ih => exact fun rs => ih rs (h rs)
  | write a k ih => exact fun b => ih b (h b)
  | commit k ih => exact fun e => ih e (h e)
  | rollback k ih => exact ih h
  | note n k ih =>
    cases n with
    | inl n => exact ih h
    | inr o => exact ⟨h.1, ih h.2⟩

theorem Along.imp {P' : List O → Prop} {p : Prog R A I (N ⊕ O) D X α} {Q : α → List O → Prop}
    {E : X → List O → Prop} (hP : ∀ l, P l → P' l) (h : p.Along P Q E l) : p.Along P' Q E l := by
  induction p generalizing l with
  | ret a => exact h
  | raise x => exact h
  | ask k ih => exact fun i => ih i (h i)
  | read k ih => exact fun d => ih d (h d)
  | lock r q k ih => exact fun b => ih b (h b)
  | lockSkip rs n k ih => exact fun rs => ih rs (h rs)
  | write a k ih => exact fun b => ih b (h b)
  | commit k ih => exact fun e => ih e (h e)
  | rollback k ih => exact ih h
  | note n k ih =>
    cases n with
    | inl n => exact ih h
    | inr o => exact ⟨hP _ h.1, ih h.2⟩

theorem along_true (p : Prog R A I (N ⊕ O) D X α) :
    p.Along (fun _ => True) (fun _ _ => True) (fun _ _ => True) l := by
  induction p generalizing l with
  | ret a => trivial
  | raise x => trivial
  | ask k ih => exact fun i => ih i
  | read k ih => exact fun d => ih d
  | lock r q k ih => exact fun b => ih b
  | lockSkip rs n k ih => exact fun rs => ih rs
  | write a k ih => exact fun b => ih b
  | commit k ih => exact fun e => ih e
  | rollback k ih => exact ih
  | note n k ih =>
    cases n with
    | inl n => exact ih
    | inr o => exact ⟨trivial, ih⟩

/-- One instruction later. -/
theorem Along.leads {p p' : Prog R A I (N ⊕ O) D X α} {Q : α → List O → Prop}
    {E : X → List O → Prop} (h : p.Along P Q E l) (hp : p.Leads p') :
    p'.Along P Q E (l ++ p.report) ∧ (p.report = [] ∨ P (l ++ p.report)) := by
  cases hp with
  | ask k i => exact ⟨(List.append_nil l).symm ▸ h i, .inl rfl⟩
  | read k d => exact ⟨(List.append_nil l).symm ▸ h d, .inl rfl⟩
  | lock r q k b => exact ⟨(List.append_nil l).symm ▸ h b, .inl rfl⟩
  | lockSkip rs n k rs' => exact ⟨(List.append_nil l).symm ▸ h rs', .inl rfl⟩
  | write a k b => exact ⟨(List.append_nil l).symm ▸ h b, .inl rfl⟩
  | commit k e => exact ⟨(List.append_nil l).symm ▸ h e, .inl rfl⟩
  | rollback k => exact ⟨(List.append_nil l).symm ▸ h, .inl rfl⟩
  | note n k =>
    cases n with
    | inl n => exact ⟨(List.append_nil l).symm ▸ h, .inl rfl⟩
    | inr o => exact ⟨h.2, .inr h.1⟩

/-- A program that reports nothing. -/
theorem along_observed {p : Prog R A I N D X α} {Q : α → List O → Prop}
    {E : X → List O → Prop} (hQ : ∀ a, Q a l) (hE : ∀ x, E x l) :
    (p.observed O).Along P Q E l := by
  induction p with
  | ret a => exact hQ a
  | raise x => exact hE x
  | ask k ih => exact fun i => ih i
  | read k ih => exact fun d => ih d
  | lock r q k ih => exact fun b => ih b
  | lockSkip rs n k ih => exact fun rs => ih rs
  | write a k ih => exact fun b => ih b
  | commit k ih => exact fun e => ih e
  | rollback k ih => exact ih
  | note n k ih => exact ih

end Prog

/-! ## Silent runs -/

/-- The process `q` does what `pr` does, and reports nothing. -/
structure Proc.Silences (pr : Proc R A I (N ⊕ O) D X C) (q : Proc R A I N D X C) : Prop where
  call : q.call = pr.call
  /-- the program -/
  prog : q.prog = pr.prog.silent
  /-- the pending statements -/
  pending : q.pending = pr.pending

/-- The states agree but for the reports. -/
structure Sys.Silences (s : Sys R A I (N ⊕ O) D X C) (t : Sys R A I N D X C) : Prop where
  /-- the contents -/
  db : t.db = s.db
  /-- the locks -/
  owner : t.owner = s.owner
  /-- the processes -/
  proc : ∀ p, Option.Rel Proc.Silences (s.proc p) (t.proc p)

namespace Sys.Silences

variable {s : Sys R A I (N ⊕ O) D X C} {t : Sys R A I N D X C} {p : ℕ}

theorem put (h : s.Silences t) {pr : Proc R A I (N ⊕ O) D X C} {q : Proc R A I N D X C}
    (hq : pr.Silences q) : (s.put p pr).Silences (t.put p q) where
  db := h.db
  owner := h.owner
  proc p' := by
    by_cases hp : p' = p
    · subst hp
      simpa using Option.Rel.some hq
    · simpa [Function.update_of_ne hp] using h.proc p'

theorem put_left (h : s.Silences t) {pr : Proc R A I (N ⊕ O) D X C} {q : Proc R A I N D X C}
    (hp : t.proc p = some q) (hq : pr.Silences q) : (s.put p pr).Silences t where
  db := h.db
  owner := h.owner
  proc p' := by
    by_cases hp' : p' = p
    · subst hp'
      simpa [hp] using Option.Rel.some hq
    · simpa [Function.update_of_ne hp'] using h.proc p'

theorem release (h : s.Silences t) : (s.release p).Silences (t.release p) where
  db := h.db
  owner := by simp only [Sys.release, h.owner]
  proc := h.proc

theorem drop (h : s.Silences t) : (s.drop p).Silences (t.drop p) where
  db := h.db
  owner := h.release.owner
  proc p' := by
    by_cases hp : p' = p
    · subst hp
      simp
    · simpa [Function.update_of_ne hp] using h.proc p'

theorem acquire [DecidableEq R] (h : s.Silences t) (l : List R) :
    (s.acquire p l).Silences (t.acquire p l) where
  db := h.db
  owner := by simp only [Sys.acquire, h.owner]
  proc := h.proc

theorem withDb (h : s.Silences t) (d : D) : Sys.Silences { s with db := d } { t with db := d } where
  db := rfl
  owner := h.owner
  proc := h.proc

theorem free (h : s.Silences t) (r : R) : t.free p r = s.free p r := by
  simp only [Sys.free, h.owner]

end Sys.Silences

namespace Model

variable [DecidableEq R] {M : Model R A I (N ⊕ O) D X C E} {M' : Model R A I N D X C E}

/-- The model takes the steps of `M`, and its processes report nothing. -/
structure Silences (M : Model R A I (N ⊕ O) D X C E) (M' : Model R A I N D X C E) : Prop where
  schema : M'.schema = M.schema
  /-- the programs -/
  body : ∀ c, M'.body c = (M.body c).silent
  /-- the outside events -/
  env : M'.env = M.env

/-- One instruction; a report is none. -/
theorem Silences.exec (hM : M.Silences M') {s s' : Sys R A I (N ⊕ O) D X C}
    {t : Sys R A I N D X C} (h : s.Silences t) {p : ℕ} {i : I} {pr : Proc R A I (N ⊕ O) D X C}
    {q : Proc R A I N D X C} (hp : t.proc p = some q) (hq : pr.Silences q)
    (hs : M.exec p i s pr = some s') :
    s'.Silences t ∨ ∃ t', M'.exec p i t q = some t' ∧ s'.Silences t' := by
  obtain ⟨c, prog, pending, mark⟩ := pr
  obtain ⟨c', prog', pending', mark'⟩ := q
  obtain ⟨hcall, hprog, hpending⟩ := hq
  change c' = c at hcall
  change prog' = prog.silent at hprog
  change pending' = pending at hpending
  subst hcall hprog hpending
  have hview : M'.schema.view pending' t.db = M.schema.view pending' s.db := by
    rw [hM.schema, h.db]
  cases prog with
  | ret a =>
    obtain rfl := Option.some.inj hs
    exact .inr ⟨_, rfl, h.drop⟩
  | raise x =>
    obtain rfl := Option.some.inj hs
    exact .inr ⟨_, rfl, h.drop⟩
  | ask k =>
    obtain rfl := Option.some.inj hs
    exact .inr ⟨_, rfl, h.put ⟨rfl, rfl, rfl⟩⟩
  | read k =>
    obtain rfl := Option.some.inj hs
    exact .inr ⟨_, rfl, h.put ⟨rfl, by rw [hview], rfl⟩⟩
  | lock r f k =>
    simp only [Model.exec, Prog.silent, hview, h.free] at hs ⊢
    split at hs
    · split at hs
      · rename_i hf hfree
        obtain rfl := Option.some.inj hs
        simp only [hf, hfree, if_true]
        exact .inr ⟨_, rfl, (h.acquire _).put ⟨rfl, rfl, rfl⟩⟩
      · cases hs
    · rename_i hf
      obtain rfl := Option.some.inj hs
      simp only [hf]
      exact .inr ⟨_, rfl, h.put ⟨rfl, rfl, rfl⟩⟩
  | lockSkip rs n k =>
    obtain rfl := Option.some.inj hs
    have hfree : t.free p = s.free p := funext fun r => h.free r
    refine .inr ⟨_, rfl, ?_⟩
    simp only [hview, hfree]
    exact (h.acquire _).put ⟨rfl, rfl, rfl⟩
  | write a k =>
    have hfree : t.free p = s.free p := funext fun r => h.free r
    simp only [Model.exec, Prog.silent, hfree, h.db, hM.schema] at hs ⊢
    split at hs
    · rename_i hf
      rw [if_pos hf]
      split at hs
      · rename_i hcheck
        obtain rfl := Option.some.inj hs
        rw [if_pos hcheck]
        exact .inr ⟨_, rfl, (h.acquire _).put ⟨rfl, rfl, rfl⟩⟩
      · rename_i hcheck
        obtain rfl := Option.some.inj hs
        rw [if_neg hcheck]
        exact .inr ⟨_, rfl, (h.acquire _).put ⟨rfl, rfl, rfl⟩⟩
    · cases hs
  | commit k =>
    simp only [Model.exec, Prog.silent, hM.schema, h.db] at hs ⊢
    split at hs
    · obtain rfl := Option.some.inj hs
      exact .inr ⟨_, rfl, (h.withDb _).release.put ⟨rfl, rfl, rfl⟩⟩
    · obtain rfl := Option.some.inj hs
      exact .inr ⟨_, rfl, h.release.put ⟨rfl, rfl, rfl⟩⟩
  | rollback k =>
    obtain rfl := Option.some.inj hs
    exact .inr ⟨_, rfl, h.release.put ⟨rfl, rfl, rfl⟩⟩
  | note n k =>
    obtain rfl := Option.some.inj hs
    cases n with
    | inl n => exact .inr ⟨_, rfl, h.put ⟨rfl, rfl, rfl⟩⟩
    | inr o => exact .inl (h.put_left hp ⟨rfl, rfl, rfl⟩)

/-- One step; a report is none. -/
theorem Silences.step (hM : M.Silences M') {s s' : Sys R A I (N ⊕ O) D X C}
    {t : Sys R A I N D X C} (h : s.Silences t) {a : Act I C E} (hs : M.step a s = some s') :
    s'.Silences t ∨ ∃ t', M'.step a t = some t' ∧ s'.Silences t' := by
  cases a with
  | spawn p c =>
    have hp := h.proc p
    simp only [Model.step] at hs ⊢
    split at hs
    · rename_i hnone
      obtain rfl := Option.some.inj hs
      rw [hnone] at hp
      cases hp' : t.proc p with
      | some q =>
        rw [hp'] at hp
        cases hp
      | none => exact .inr ⟨_, rfl, h.put ⟨rfl, hM.body c, rfl⟩⟩
    · cases hs
  | exec p i =>
    obtain ⟨pr, hpr, hexec⟩ := Option.bind_eq_some_iff.mp hs
    have hp := h.proc p
    rw [hpr] at hp
    obtain ⟨q, hq, hsilent⟩ : ∃ q, t.proc p = some q ∧ pr.Silences q := by
      cases hq : t.proc p with
      | none =>
        rw [hq] at hp
        cases hp
      | some q =>
        rw [hq] at hp
        cases hp with
        | some hp => exact ⟨q, rfl, hp⟩
    refine (hM.exec h hq hsilent hexec).imp_right ?_
    rintro ⟨t', ht', hs'⟩
    exact ⟨t', by simpa [Model.step, hq] using ht', hs'⟩
  | crash p =>
    obtain ⟨pr, hpr, rfl⟩ := Option.map_eq_some_iff.mp hs
    have hp := h.proc p
    rw [hpr] at hp
    cases hq : t.proc p with
    | none =>
      rw [hq] at hp
      cases hp
    | some q => exact .inr ⟨_, by simp [Model.step, hq], h.drop⟩
  | env e =>
    obtain rfl := Option.some.inj hs
    exact .inr ⟨_, rfl, by rw [hM.env, h.db]; exact h.withDb _⟩

/-- **Reports change nothing**: the states of the runs of a model are those of the
runs of the silent one, but for the reports. -/
theorem Silences.reachable (hM : M.Silences M') {ok : Act I C E → Sys R A I (N ⊕ O) D X C → Prop}
    {d₀ : D} {s : Sys R A I (N ⊕ O) D X C} (h : M.ReachableBy ok d₀ s) :
    ∃ t, M'.Reachable d₀ t ∧ s.Silences t := by
  induction h with
  | start => exact ⟨idle d₀, .start, rfl, rfl, fun _ => .none⟩
  | step _ _ hs ih =>
    obtain ⟨t, ht, hsilent⟩ := ih
    rcases hM.step hsilent hs with hsame | ⟨t', ht', hsilent'⟩
    · exact ⟨t, ht, hsame⟩
    · exact ⟨t', .step ht trivial ht', hsilent'⟩

/-! ## Reports in runs -/

/-- The reports of the process `p` after a step, from those before it. -/
def history (p : ℕ) (a : Act I C E) (s : Sys R A I (N ⊕ O) D X C) (l : List O) : List O :=
  match a with
  | .spawn q _ => if q = p then [] else l
  | .exec q _ => if q = p then l ++ (s.proc p).elim [] (·.prog.report) else l
  | _ => l

/-- The states of the runs from `d₀` all of whose steps meet `ok`, with the reports
of the process `p` since it began. -/
inductive Observed (M : Model R A I (N ⊕ O) D X C E)
    (ok : Act I C E → Sys R A I (N ⊕ O) D X C → Prop) (d₀ : D) (p : ℕ) :
    List O → Sys R A I (N ⊕ O) D X C → Prop where
  /-- nothing has happened yet -/
  | start : Observed M ok d₀ p [] (idle d₀)
  /-- one more step -/
  | step {l : List O} {s s' : Sys R A I (N ⊕ O) D X C} {a : Act I C E} :
      Observed M ok d₀ p l s → ok a s → M.step a s = some s' →
        Observed M ok d₀ p (history p a s l) s'

variable {ok : Act I C E → Sys R A I (N ⊕ O) D X C → Prop} {d₀ : D} {p : ℕ} {l : List O}
  {s s' : Sys R A I (N ⊕ O) D X C} {pr pr' : Proc R A I (N ⊕ O) D X C}

/-- What a process reports on its way, from the program that it is left with. -/
abbrev Tracks (P : C → List O → Prop) (pr : Proc R A I (N ⊕ O) D X C) (l : List O) : Prop :=
  pr.prog.Along (P pr.call) (fun _ _ => True) (fun _ _ => True) l

/-- One instruction goes on with the reports of the program. -/
theorem Tracks.exec {P : C → List O → Prop} {i : I} (h : Tracks P pr l)
    (hs : M.exec p i s pr = some s') (hp : s'.proc p = some pr') :
    Tracks P pr' (l ++ pr.prog.report) ∧
      (pr.prog.report = [] ∨ P pr.call (l ++ pr.prog.report)) := by
  have hleads := leads_of_exec hs hp
  rw [Tracks, hleads.call]
  exact Prog.Along.leads h hleads.prog

/-- **What the programs report holds in runs**: it is enough that what is left of a
program after its first instruction, in the state of that moment, reports only
lists for which `P` holds. -/
theorem Observed.holds {P : C → List O → Prop} (hquiet : ∀ c, (M.body c).report = [])
    (hfirst : ∀ {c i s s' pr'}, ok (.exec p i) s → s.proc p = some ⟨c, M.body c, [], none⟩ →
      M.exec p i s ⟨c, M.body c, [], none⟩ = some s' → s'.proc p = some pr' →
        pr'.call = c → Tracks P pr' [])
    (h : M.Observed ok d₀ p l s) (hp : s.proc p = some pr) : l = [] ∨ P pr.call l := by
  suffices hall : ∀ pr, s.proc p = some pr → (l = [] ∨ P pr.call l) ∧
      (l = [] ∧ pr = ⟨pr.call, M.body pr.call, [], none⟩ ∨ Tracks P pr l) from (hall pr hp).1
  clear hp
  induction h with
  | start => exact nofun
  | @step l s s' a h hok hs ih =>
    intro pr hp
    cases a with
    | spawn q c =>
      simp only [Model.step] at hs
      split at hs
      · rename_i hnone
        obtain rfl := Option.some.inj hs
        by_cases hq : q = p
        · subst hq
          obtain rfl : ⟨c, M.body c, [], none⟩ = pr := Option.some.inj (by simpa using hp)
          simp [history]
        · rw [Sys.proc_put, Function.update_of_ne (Ne.symm hq)] at hp
          simpa only [history, if_neg hq] using ih pr hp
      · cases hs
    | exec q i =>
      obtain ⟨pr₀, hpr₀, hexec⟩ := Option.bind_eq_some_iff.mp hs
      by_cases hq : q = p
      · subst hq
        simp only [history, if_true, hpr₀, Option.elim_some]
        obtain ⟨hl, hstart | htracks⟩ := ih pr₀ hpr₀
        · obtain ⟨rfl, hbody⟩ := hstart
          generalize pr₀.call = c at hbody
          subst hbody
          have hcall := (leads_of_exec hexec hp).call
          simp only [hquiet, List.append_nil, true_or, true_and]
          exact .inr (hfirst hok hpr₀ hexec hp hcall)
        · have hcall := (leads_of_exec hexec hp).call
          obtain ⟨htracks', hreport | hreport⟩ := htracks.exec hexec hp
          · rw [hreport, List.append_nil, hcall]
            rw [hreport, List.append_nil] at htracks'
            exact ⟨hl, .inr htracks'⟩
          · rw [hcall]
            exact ⟨.inr hreport, .inr htracks'⟩
      · rw [exec_proc_ne (Ne.symm hq) hexec] at hp
        simpa only [history, if_neg hq] using ih pr hp
    | crash q =>
      obtain ⟨pr₀, hpr₀, rfl⟩ := Option.map_eq_some_iff.mp hs
      by_cases hq : q = p
      · subst hq
        simp at hp
      · rw [Sys.proc_drop, Function.update_of_ne (Ne.symm hq)] at hp
        exact ih pr hp
    | env e =>
      obtain rfl := Option.some.inj hs
      exact ih pr hp

/-- A run reports what its programs report. -/
theorem Observed.holds_of_body {P : C → List O → Prop} (hquiet : ∀ c, (M.body c).report = [])
    (hbody : ∀ c, (M.body c).Along (P c) (fun _ _ => True) (fun _ _ => True) [])
    (h : M.Observed ok d₀ p l s) (hp : s.proc p = some pr) : l = [] ∨ P pr.call l := by
  refine h.holds hquiet (fun {c i s s' pr'} _ hp hexec hp' _ => ?_) hp
  have := (Tracks.exec (P := P) (l := []) (hbody c) hexec hp').1
  simpa only [hquiet, List.append_nil] using this

/-! ## Concrete runs -/

/-- Take the steps of a list in order, as long as each passes a test, and collect
the reports of the process `p`. -/
def observeBy (M : Model R A I (N ⊕ O) D X C E)
    (test : Act I C E → Sys R A I (N ⊕ O) D X C → Bool) (p : ℕ) :
    List (Act I C E) → List O → Sys R A I (N ⊕ O) D X C →
      Option (List O × Sys R A I (N ⊕ O) D X C)
  | [], l, s => some (l, s)
  | a :: rest, l, s =>
    if test a s then (M.step a s).bind fun s' => observeBy M test p rest (history p a s l) s'
    else none

theorem Observed.observeBy {test : Act I C E → Sys R A I (N ⊕ O) D X C → Bool}
    (hok : ∀ a s, test a s = true → ok a s) {acts : List (Act I C E)} {l' : List O} :
    ∀ {l : List O} {s : Sys R A I (N ⊕ O) D X C}, M.Observed ok d₀ p l s →
      M.observeBy test p acts l s = some (l', s') → M.Observed ok d₀ p l' s' := by
  induction acts with
  | nil =>
    intro l s h hrun
    cases hrun
    exact h
  | cons a acts ih =>
    intro l s h hrun
    rw [Model.observeBy] at hrun
    split at hrun
    · rename_i ht
      obtain ⟨s₁, h₁, hrest⟩ := Option.bind_eq_some_iff.mp hrun
      exact ih (.step h (hok a s ht) h₁) hrest
    · cases hrun

end Model

end FinanceIntelligence
