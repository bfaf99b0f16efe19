import Mathlib.Logic.Function.Basic
import Mathlib.Logic.Relation
import Mathlib.Data.List.Basic
import Mathlib.Data.Set.Insert

/-!
# Transactions: programs over a store with row locks

A general layer, independent of any application. Three parts:

* `Prog` — **transaction syntax**: a free monad over what a server process does
  between two points where others can see it. Reads, locking reads, buffered
  writes, `commit` and `rollback`, answers of the outside world (`ask`), and
  exceptions as leaves (`raise`), which `tryCatch` replaces by a handler.
* `Model.step` — the **interleaving semantics**: any number of processes, one
  instruction of one process at a time, under *read committed*: a statement
  sees the committed contents overlaid with the process's own pending writes,
  a row lock is held until the transaction ends, and a crash drops what was
  pending.
* `Model.ReachableBy` — the states of runs whose steps all meet a condition.

A constraint (a unique index, a check, a trigger) is a test on a statement and
the contents it meets. It is evaluated when the statement runs and again when
the transaction commits: a conflict with a writer that has not committed yet
makes the later of the two fail.
-/

namespace FinanceIntelligence

/-- A transaction program over lockable rows `R`, writing statements `A`,
outside answers `I`, progress notes `N`, contents `D` and exceptions `X`. -/
inductive Prog (R A I N D X : Type) (α : Type) : Type where
  /-- return a value -/
  | ret : α → Prog R A I N D X α
  /-- an exception -/
  | raise : X → Prog R A I N D X α
  /-- an answer from outside the store -/
  | ask : (I → Prog R A I N D X α) → Prog R A I N D X α
  /-- a plain `SELECT` -/
  | read : (D → Prog R A I N D X α) → Prog R A I N D X α
  /-- `SELECT … FOR UPDATE` of one row, if the contents qualify it; waits for
  the row's lock -/
  | lock : R → (D → Bool) → (Bool → Prog R A I N D X α) → Prog R A I N D X α
  /-- `FOR UPDATE SKIP LOCKED LIMIT n` over the rows named, in their order -/
  | lockSkip : (D → List R) → ℕ → (List R → Prog R A I N D X α) → Prog R A I N D X α
  /-- a writing statement; an `UPDATE` waits for its row's lock, and the
  continuation is told whether the constraints held -/
  | write : A → (Bool → Prog R A I N D X α) → Prog R A I N D X α
  /-- make the pending writes visible and release every lock; the continuation
  is told which statement's constraints failed, if any -/
  | commit : (Option A → Prog R A I N D X α) → Prog R A I N D X α
  /-- drop the pending writes and release every lock -/
  | rollback : Prog R A I N D X α → Prog R A I N D X α
  /-- no database effect: names the part of the program that follows -/
  | note : N → Prog R A I N D X α → Prog R A I N D X α

namespace Prog

variable {R A I N D X α β : Type}

/-- Run the second program with the value of the first. -/
protected def bind : Prog R A I N D X α → (α → Prog R A I N D X β) → Prog R A I N D X β
  | .ret a, f => f a
  | .raise x, _ => .raise x
  | .ask k, f => .ask fun i => (k i).bind f
  | .read k, f => .read fun d => (k d).bind f
  | .lock r q k, f => .lock r q fun b => (k b).bind f
  | .lockSkip rs n k, f => .lockSkip rs n fun l => (k l).bind f
  | .write a k, f => .write a fun b => (k b).bind f
  | .commit k, f => .commit fun e => (k e).bind f
  | .rollback k, f => .rollback (k.bind f)
  | .note n k, f => .note n (k.bind f)

/-- Run the handler when the program raises. -/
protected def tryCatch : Prog R A I N D X α → (X → Prog R A I N D X α) → Prog R A I N D X α
  | .ret a, _ => .ret a
  | .raise x, h => h x
  | .ask k, h => .ask fun i => (k i).tryCatch h
  | .read k, h => .read fun d => (k d).tryCatch h
  | .lock r q k, h => .lock r q fun b => (k b).tryCatch h
  | .lockSkip rs n k, h => .lockSkip rs n fun l => (k l).tryCatch h
  | .write a k, h => .write a fun b => (k b).tryCatch h
  | .commit k, h => .commit fun e => (k e).tryCatch h
  | .rollback k, h => .rollback (k.tryCatch h)
  | .note n k, h => .note n (k.tryCatch h)

/-- Programs one after the other. -/
theorem bind_assoc {γ : Type} (p : Prog R A I N D X α) (f : α → Prog R A I N D X β)
    (g : β → Prog R A I N D X γ) : (p.bind f).bind g = p.bind fun a => (f a).bind g := by
  induction p with
  | ret a => rfl
  | raise x => rfl
  | ask k ih => simp only [Prog.bind, ih]
  | read k ih => simp only [Prog.bind, ih]
  | lock r q k ih => simp only [Prog.bind, ih]
  | lockSkip rs n k ih => simp only [Prog.bind, ih]
  | write a k ih => simp only [Prog.bind, ih]
  | commit k ih => simp only [Prog.bind, ih]
  | rollback k ih => simp only [Prog.bind, ih]
  | note n k ih => simp only [Prog.bind, ih]

theorem bind_ret (p : Prog R A I N D X α) : p.bind .ret = p := by
  induction p with
  | ret a => rfl
  | raise x => rfl
  | ask k ih => simp only [Prog.bind, ih]
  | read k ih => simp only [Prog.bind, ih]
  | lock r q k ih => simp only [Prog.bind, ih]
  | lockSkip rs n k ih => simp only [Prog.bind, ih]
  | write a k ih => simp only [Prog.bind, ih]
  | commit k ih => simp only [Prog.bind, ih]
  | rollback k ih => simp only [Prog.bind, ih]
  | note n k ih => simp only [Prog.bind, ih]

/-- The next instruction is a `commit`. -/
def isCommit : Prog R A I N D X α → Bool
  | .commit _ => true
  | _ => false

/-- The program does not end its transaction. -/
def Stays : Prog R A I N D X α → Prop
  | .ret _ => True
  | .raise _ => True
  | .ask k => ∀ i, (k i).Stays
  | .read k => ∀ d, (k d).Stays
  | .lock _ _ k => ∀ b, (k b).Stays
  | .lockSkip _ _ k => ∀ l, (k l).Stays
  | .write _ k => ∀ b, (k b).Stays
  | .commit _ => False
  | .rollback _ => False
  | .note _ k => k.Stays

theorem Stays.bind {p : Prog R A I N D X α} {f : α → Prog R A I N D X β} (hp : p.Stays)
    (hf : ∀ a, (f a).Stays) : (p.bind f).Stays := by
  induction p with
  | ret a => exact hf a
  | raise x => trivial
  | ask k ih => exact fun i => ih i (hp i)
  | read k ih => exact fun d => ih d (hp d)
  | lock r q k ih => exact fun b => ih b (hp b)
  | lockSkip rs n k ih => exact fun l => ih l (hp l)
  | write a k ih => exact fun b => ih b (hp b)
  | commit k => exact hp.elim
  | rollback k => exact hp.elim
  | note n k ih => exact ih hp

/-- One instruction leads from a program to what is left of it. -/
inductive Leads : Prog R A I N D X α → Prog R A I N D X α → Prop where
  | ask (k : I → Prog R A I N D X α) (i : I) : Leads (.ask k) (k i)
  | read (k : D → Prog R A I N D X α) (d : D) : Leads (.read k) (k d)
  | lock (r : R) (q : D → Bool) (k : Bool → Prog R A I N D X α) (b : Bool) :
    Leads (.lock r q k) (k b)
  | lockSkip (rs : D → List R) (n : ℕ) (k : List R → Prog R A I N D X α) (l : List R) :
    Leads (.lockSkip rs n k) (k l)
  | write (a : A) (k : Bool → Prog R A I N D X α) (b : Bool) : Leads (.write a k) (k b)
  | commit (k : Option A → Prog R A I N D X α) (e : Option A) : Leads (.commit k) (k e)
  | rollback (k : Prog R A I N D X α) : Leads (.rollback k) k
  | note (n : N) (k : Prog R A I N D X α) : Leads (.note n k) k

/-- Every statement that the program may run is of a kind. -/
def WritesOnly (P : A → Prop) : Prog R A I N D X α → Prop
  | .ret _ => True
  | .raise _ => True
  | .ask k => ∀ i, (k i).WritesOnly P
  | .read k => ∀ d, (k d).WritesOnly P
  | .lock _ _ k => ∀ b, (k b).WritesOnly P
  | .lockSkip _ _ k => ∀ l, (k l).WritesOnly P
  | .write a k => P a ∧ ∀ b, (k b).WritesOnly P
  | .commit k => ∀ e, (k e).WritesOnly P
  | .rollback k => k.WritesOnly P
  | .note _ k => k.WritesOnly P

theorem WritesOnly.mono {P Q : A → Prop} {p : Prog R A I N D X α} (h : p.WritesOnly P)
    (hPQ : ∀ a, P a → Q a) : p.WritesOnly Q := by
  induction p with
  | ret a => trivial
  | raise x => trivial
  | ask k ih => exact fun i => ih i (h i)
  | read k ih => exact fun d => ih d (h d)
  | lock r q k ih => exact fun b => ih b (h b)
  | lockSkip rs n k ih => exact fun l => ih l (h l)
  | write a k ih => exact ⟨hPQ a h.1, fun b => ih b (h.2 b)⟩
  | commit k ih => exact fun e => ih e (h e)
  | rollback k ih => exact ih h
  | note n k ih => exact ih h

theorem writesOnly_of_all {P : A → Prop} (h : ∀ a, P a) (p : Prog R A I N D X α) :
    p.WritesOnly P := by
  induction p with
  | ret a => trivial
  | raise x => trivial
  | ask k ih => exact fun i => ih i
  | read k ih => exact fun d => ih d
  | lock r q k ih => exact fun b => ih b
  | lockSkip rs n k ih => exact fun l => ih l
  | write a k ih => exact ⟨h a, fun b => ih b⟩
  | commit k ih => exact fun e => ih e
  | rollback k ih => exact ih
  | note n k ih => exact ih

theorem WritesOnly.leads {P : A → Prop} {p p' : Prog R A I N D X α} (h : p.WritesOnly P)
    (hp : p.Leads p') : p'.WritesOnly P := by
  cases hp with
  | ask k i => exact h i
  | read k d => exact h d
  | lock r q k b => exact h b
  | lockSkip rs n k l => exact h l
  | write a k b => exact h.2 b
  | commit k e => exact h e
  | rollback k => exact h
  | note n k => exact h

/-- The program returns `a` on one of its ways. -/
def MayReturn (a : α) : Prog R A I N D X α → Prop
  | .ret b => b = a
  | .raise _ => False
  | .ask k => ∃ i, (k i).MayReturn a
  | .read k => ∃ d, (k d).MayReturn a
  | .lock _ _ k => ∃ b, (k b).MayReturn a
  | .lockSkip _ _ k => ∃ l, (k l).MayReturn a
  | .write _ k => ∃ b, (k b).MayReturn a
  | .commit k => ∃ e, (k e).MayReturn a
  | .rollback k => k.MayReturn a
  | .note _ k => k.MayReturn a

/-- Both parts write statements of the kind, the second for every value that it
may be given. -/
theorem writesOnly_bind {P : A → Prop} {p : Prog R A I N D X α} {f : α → Prog R A I N D X β} :
    (p.bind f).WritesOnly P ↔ p.WritesOnly P ∧ ∀ a, p.MayReturn a → (f a).WritesOnly P := by
  induction p with
  | ret a => exact ⟨fun h => ⟨trivial, fun b hb => hb ▸ h⟩, fun h => h.2 a rfl⟩
  | raise x => exact ⟨fun _ => ⟨trivial, fun _ hb => hb.elim⟩, fun _ => trivial⟩
  | ask k ih =>
    simp only [Prog.bind, WritesOnly, MayReturn, ih]
    exact ⟨fun h => ⟨fun i => (h i).1, fun a ⟨i, ha⟩ => (h i).2 a ha⟩,
      fun h i => ⟨h.1 i, fun a ha => h.2 a ⟨i, ha⟩⟩⟩
  | read k ih =>
    simp only [Prog.bind, WritesOnly, MayReturn, ih]
    exact ⟨fun h => ⟨fun d => (h d).1, fun a ⟨d, ha⟩ => (h d).2 a ha⟩,
      fun h d => ⟨h.1 d, fun a ha => h.2 a ⟨d, ha⟩⟩⟩
  | lock r q k ih =>
    simp only [Prog.bind, WritesOnly, MayReturn, ih]
    exact ⟨fun h => ⟨fun b => (h b).1, fun a ⟨b, ha⟩ => (h b).2 a ha⟩,
      fun h b => ⟨h.1 b, fun a ha => h.2 a ⟨b, ha⟩⟩⟩
  | lockSkip rs n k ih =>
    simp only [Prog.bind, WritesOnly, MayReturn, ih]
    exact ⟨fun h => ⟨fun l => (h l).1, fun a ⟨l, ha⟩ => (h l).2 a ha⟩,
      fun h l => ⟨h.1 l, fun a ha => h.2 a ⟨l, ha⟩⟩⟩
  | write a k ih =>
    simp only [Prog.bind, WritesOnly, MayReturn, ih]
    exact ⟨fun h => ⟨⟨h.1, fun b => (h.2 b).1⟩, fun a ⟨b, ha⟩ => (h.2 b).2 a ha⟩,
      fun h => ⟨h.1.1, fun b => ⟨h.1.2 b, fun a ha => h.2 a ⟨b, ha⟩⟩⟩⟩
  | commit k ih =>
    simp only [Prog.bind, WritesOnly, MayReturn, ih]
    exact ⟨fun h => ⟨fun e => (h e).1, fun a ⟨e, ha⟩ => (h e).2 a ha⟩,
      fun h e => ⟨h.1 e, fun a ha => h.2 a ⟨e, ha⟩⟩⟩
  | rollback k ih => exact ih
  | note n k ih => exact ih

/-- What both parts write is of the kind. -/
theorem WritesOnly.bind {P : A → Prop} {p : Prog R A I N D X α} {f : α → Prog R A I N D X β}
    (h : p.WritesOnly P) (hf : ∀ a, (f a).WritesOnly P) : (p.bind f).WritesOnly P :=
  writesOnly_bind.mpr ⟨h, fun a _ => hf a⟩

/-- What a part and its handler write is of the kind. -/
theorem WritesOnly.tryCatch {P : A → Prop} {p : Prog R A I N D X α}
    {f : X → Prog R A I N D X α} (h : p.WritesOnly P) (hf : ∀ x, (f x).WritesOnly P) :
    (p.tryCatch f).WritesOnly P := by
  induction p with
  | ret a => trivial
  | raise x => exact hf x
  | ask k ih => exact fun i => ih i (h i)
  | read k ih => exact fun d => ih d (h d)
  | lock r q k ih => exact fun b => ih b (h b)
  | lockSkip rs n k ih => exact fun l => ih l (h l)
  | write a k ih => exact ⟨h.1, fun b => ih b (h.2 b)⟩
  | commit k ih => exact fun e => ih e (h e)
  | rollback k ih => exact ih h
  | note n k ih => exact ih h

/-- What is left to write after a part that may return `a`. -/
theorem WritesOnly.of_bind {P : A → Prop} {p : Prog R A I N D X α}
    {f : α → Prog R A I N D X β} (h : (p.bind f).WritesOnly P) {a : α} (ha : p.MayReturn a) :
    (f a).WritesOnly P := (writesOnly_bind.mp h).2 a ha

/-- With outside answers of the kind `ok`, the program may run a statement of the
kind `P`, or else return a value of the kind `Q`. -/
def May (ok : I → Prop) (P : A → Prop) : Prog R A I N D X α → (α → Prop) → Prop
  | .ret a, Q => Q a
  | .raise _, _ => False
  | .ask k, Q => ∃ i, ok i ∧ (k i).May ok P Q
  | .read k, Q => ∃ d, (k d).May ok P Q
  | .lock _ _ k, Q => ∃ b, (k b).May ok P Q
  | .lockSkip _ _ k, Q => ∃ l, (k l).May ok P Q
  | .write a k, Q => P a ∨ ∃ b, (k b).May ok P Q
  | .commit k, Q => ∃ e, (k e).May ok P Q
  | .rollback k, Q => k.May ok P Q
  | .note _ k, Q => k.May ok P Q

@[simp] theorem may_ret {ok : I → Prop} {P : A → Prop} {a : α} {Q : α → Prop} :
    (ret a : Prog R A I N D X α).May ok P Q = Q a := rfl

/-- What may happen in one part or, after it, in the other. -/
@[simp] theorem may_bind {ok : I → Prop} {P : A → Prop} {p : Prog R A I N D X α}
    {f : α → Prog R A I N D X β} {Q : β → Prop} :
    (p.bind f).May ok P Q = p.May ok P fun a => (f a).May ok P Q := by
  induction p with
  | ret a => rfl
  | raise x => rfl
  | ask k ih => simp only [Prog.bind, May, ih]
  | read k ih => simp only [Prog.bind, May, ih]
  | lock r q k ih => simp only [Prog.bind, May, ih]
  | lockSkip rs n k ih => simp only [Prog.bind, May, ih]
  | write a k ih => simp only [Prog.bind, May, ih]
  | commit k ih => simp only [Prog.bind, May, ih]
  | rollback k ih => exact ih
  | note n k ih => exact ih

/-- A program that writes no statement of the kind can only return. -/
theorem WritesOnly.mayReturn {ok : I → Prop} {P : A → Prop} {p : Prog R A I N D X α}
    {Q : α → Prop} (h : p.WritesOnly fun a => ¬ P a) (hp : p.May ok P Q) : ∃ a, Q a := by
  induction p with
  | ret a => exact ⟨a, hp⟩
  | raise x => exact hp.elim
  | ask k ih =>
    obtain ⟨i, -, hi⟩ := hp
    exact ih i (h i) hi
  | read k ih =>
    obtain ⟨d, hd⟩ := hp
    exact ih d (h d) hd
  | lock r q k ih =>
    obtain ⟨b, hb⟩ := hp
    exact ih b (h b) hb
  | lockSkip rs n k ih =>
    obtain ⟨l, hl⟩ := hp
    exact ih l (h l) hl
  | write a k ih =>
    rcases hp with ha | ⟨b, hb⟩
    · exact absurd ha h.1
    · exact ih b (h.2 b) hb
  | commit k ih =>
    obtain ⟨e, he⟩ := hp
    exact ih e (h e) he
  | rollback k ih => exact ih h hp
  | note n k ih => exact ih h hp

instance : Monad (Prog R A I N D X) where
  pure := .ret
  bind := Prog.bind

@[simp] theorem pure_eq (a : α) : (pure a : Prog R A I N D X α) = .ret a := rfl

@[simp] theorem bind_eq (p : Prog R A I N D X α) (f : α → Prog R A I N D X β) :
    p >>= f = p.bind f := rfl

@[simp] theorem ret_bind (a : α) (f : α → Prog R A I N D X β) :
    (ret a : Prog R A I N D X α).bind f = f a := rfl

end Prog

/-- What the database does with a writing statement. -/
structure Schema (R A D : Type) where
  /-- the effect on the contents -/
  apply : A → D → D
  /-- the row an `UPDATE` locks; `none` for an `INSERT` -/
  target : A → Option R
  /-- the constraints and triggers, on the contents the statement meets -/
  check : A → D → Bool

namespace Schema

variable {R A D : Type} (S : Schema R A D)

/-- The contents a transaction sees: committed rows overlaid with its own
pending writes. -/
def view (pending : List A) (d : D) : D := pending.foldl (fun d a => S.apply a d) d

/-- Committing runs the pending statements against the contents of that moment;
the first one whose constraints fail is reported. -/
def replay : List A → D → Except A D
  | [], d => .ok d
  | a :: rest, d => if S.check a d then replay rest (S.apply a d) else .error a

@[simp] theorem view_nil (d : D) : S.view [] d = d := rfl

@[simp] theorem view_cons (a : A) (l : List A) (d : D) :
    S.view (a :: l) d = S.view l (S.apply a d) := rfl

@[simp] theorem view_append (l l' : List A) (d : D) :
    S.view (l ++ l') d = S.view l' (S.view l d) := List.foldl_append

/-- A commit that goes through installs exactly what the transaction saw. -/
theorem replay_eq_ok {l : List A} : ∀ {d d' : D}, S.replay l d = .ok d' → d' = S.view l d := by
  induction l with
  | nil =>
    intro d d' h
    cases h
    rfl
  | cons a l ih =>
    intro d d' h
    rw [replay] at h
    split at h
    · exact ih h
    · cases h

/-- A statement commits before the rest. -/
theorem replay_cons_eq_ok {a : A} {l : List A} {d d' : D} :
    S.replay (a :: l) d = .ok d' ↔ S.check a d = true ∧ S.replay l (S.apply a d) = .ok d' := by
  rw [replay]
  split
  · rename_i hc
    exact ⟨fun h => ⟨hc, h⟩, fun h => h.2⟩
  · rename_i hc
    exact ⟨fun h => (nomatch h), fun h => absurd h.1 hc⟩

/-- Statements that commit are followed by the rest. -/
theorem replay_append {l l' : List A} {d d' : D} (h : S.replay l d = .ok d') :
    S.replay (l ++ l') d = S.replay l' d' := by
  induction l generalizing d with
  | nil =>
    cases h
    rfl
  | cons a l ih =>
    rw [replay] at h
    rw [List.cons_append, replay]
    split at h
    · rename_i hc
      rw [if_pos hc]
      exact ih h
    · cases h

/-- Statements that commit do so one part after the other. -/
theorem replay_append_eq_ok {l l' : List A} {d d' : D} (h : S.replay (l ++ l') d = .ok d') :
    ∃ d₁, S.replay l d = .ok d₁ ∧ S.replay l' d₁ = .ok d' := by
  induction l generalizing d with
  | nil => exact ⟨d, rfl, h⟩
  | cons a l ih =>
    rw [List.cons_append, replay] at h
    rw [replay]
    split at h
    · rename_i hc
      rw [if_pos hc]
      exact ih h
    · cases h

end Schema

/-! ## Processes and states -/

/-- A running process: the call it serves, what is left of its program, its
pending writes and its last note. -/
structure Proc (R A I N D X C : Type) where
  /-- the call the process serves -/
  call : C
  /-- what is left to do -/
  prog : Prog R A I N D X Unit
  /-- statements run but not committed -/
  pending : List A
  /-- the last `note` -/
  mark : Option N

/-- A state of the whole system. -/
structure Sys (R A I N D X C : Type) where
  /-- the committed contents -/
  db : D
  /-- which process holds a row's lock -/
  owner : R → Option ℕ
  /-- the running processes -/
  proc : ℕ → Option (Proc R A I N D X C)

/-- What can happen next. -/
inductive Act (I C E : Type) where
  /-- a call arrives and is served by a new process -/
  | spawn (p : ℕ) (c : C)
  /-- process `p` runs one instruction, with the outside answer `i` if it asks -/
  | exec (p : ℕ) (i : I)
  /-- process `p` dies; the database rolls its transaction back -/
  | crash (p : ℕ)
  /-- something outside the processes happens, such as time passing -/
  | env (e : E)

/-- The calls of an application and the schema they run against. -/
structure Model (R A I N D X C E : Type) where
  /-- the database schema -/
  schema : Schema R A D
  /-- the program that serves a call -/
  body : C → Prog R A I N D X Unit
  /-- the effect of an outside event on the contents -/
  env : E → D → D

variable {R A I N D X C E : Type}

namespace Sys

variable (s : Sys R A I N D X C)

/-- Replace the process `p`. -/
def put (p : ℕ) (pr : Proc R A I N D X C) : Sys R A I N D X C :=
  { s with proc := Function.update s.proc p (some pr) }

/-- Release every lock of `p`. -/
def release (p : ℕ) : Sys R A I N D X C :=
  { s with owner := fun r => if s.owner r = some p then none else s.owner r }

/-- The process `p` is gone, and its locks with it. -/
def drop (p : ℕ) : Sys R A I N D X C :=
  { s.release p with proc := Function.update s.proc p none }

/-- `p` can have the lock on `r` now. -/
def free (p : ℕ) (r : R) : Bool := s.owner r = none || s.owner r = some p

/-- Give the locks on `l` to `p`. -/
def acquire [DecidableEq R] (p : ℕ) (l : List R) : Sys R A I N D X C :=
  { s with owner := fun r => if r ∈ l then some p else s.owner r }

/-- The rows `p` has locked. -/
def held (p : ℕ) : Set R := {r | s.owner r = some p}

@[simp] theorem db_put (p : ℕ) (pr : Proc R A I N D X C) : (s.put p pr).db = s.db := rfl

@[simp] theorem owner_put (p : ℕ) (pr : Proc R A I N D X C) : (s.put p pr).owner = s.owner := rfl

@[simp] theorem proc_put (p : ℕ) (pr : Proc R A I N D X C) :
    (s.put p pr).proc = Function.update s.proc p (some pr) := rfl

@[simp] theorem db_release (p : ℕ) : (s.release p).db = s.db := rfl

@[simp] theorem proc_release (p : ℕ) : (s.release p).proc = s.proc := rfl

@[simp] theorem db_drop (p : ℕ) : (s.drop p).db = s.db := rfl

@[simp] theorem owner_drop (p : ℕ) : (s.drop p).owner = (s.release p).owner := rfl

@[simp] theorem proc_drop (p : ℕ) : (s.drop p).proc = Function.update s.proc p none := rfl

@[simp] theorem db_acquire [DecidableEq R] (p : ℕ) (l : List R) : (s.acquire p l).db = s.db := rfl

@[simp] theorem acquire_nil [DecidableEq R] (p : ℕ) : s.acquire p [] = s := by
  simp [acquire]

@[simp] theorem proc_acquire [DecidableEq R] (p : ℕ) (l : List R) :
    (s.acquire p l).proc = s.proc := rfl

end Sys

namespace Model

variable [DecidableEq R] (M : Model R A I N D X C E)

/-- One instruction of the process `p`; `none` while it waits for a lock. -/
def exec (p : ℕ) (i : I) (s : Sys R A I N D X C) (pr : Proc R A I N D X C) :
    Option (Sys R A I N D X C) :=
  match pr.prog with
  | .ret _ => some (s.drop p)
  | .raise _ => some (s.drop p)
  | .ask k => some (s.put p { pr with prog := k i })
  | .read k => some (s.put p { pr with prog := k (M.schema.view pr.pending s.db) })
  | .lock r q k =>
    if q (M.schema.view pr.pending s.db) then
      if s.free p r then some ((s.acquire p [r]).put p { pr with prog := k true }) else none
    else some (s.put p { pr with prog := k false })
  | .lockSkip rs n k =>
    let l := ((rs (M.schema.view pr.pending s.db)).filter (s.free p)).take n
    some ((s.acquire p l).put p { pr with prog := k l })
  | .write a k =>
    let l := (M.schema.target a).toList
    if l.all (s.free p) then
      if M.schema.check a (M.schema.view pr.pending s.db) then
        some ((s.acquire p l).put p { pr with prog := k true, pending := pr.pending ++ [a] })
      else some ((s.acquire p l).put p { pr with prog := k false })
    else none
  | .commit k =>
    match M.schema.replay pr.pending s.db with
    | .ok d =>
      some ((({ s with db := d }).release p).put p { pr with prog := k none, pending := [] })
    | .error a => some ((s.release p).put p { pr with prog := k (some a), pending := [] })
  | .rollback k => some ((s.release p).put p { pr with prog := k, pending := [] })
  | .note n k => some (s.put p { pr with prog := k, mark := some n })

/-- One step of the system; `none` if it cannot be taken. -/
def step (a : Act I C E) (s : Sys R A I N D X C) : Option (Sys R A I N D X C) :=
  match a with
  | .spawn p c =>
    match s.proc p with
    | none => some (s.put p ⟨c, M.body c, [], none⟩)
    | some _ => none
  | .exec p i => (s.proc p).bind (M.exec p i s)
  | .crash p => (s.proc p).map fun _ => s.drop p
  | .env e => some { s with db := M.env e s.db }

/-- Take the steps of a list in order, as long as each passes a test. -/
def runBy (test : Act I C E → Sys R A I N D X C → Bool) :
    List (Act I C E) → Sys R A I N D X C → Option (Sys R A I N D X C)
  | [], s => some s
  | a :: rest, s => if test a s then (M.step a s).bind (runBy test rest) else none

/-- Take the steps of a list in order. -/
def run : List (Act I C E) → Sys R A I N D X C → Option (Sys R A I N D X C) :=
  M.runBy fun _ _ => true

/-- The call `c` arrives at the process `p` and runs `n` instructions, with the
answer `i` to whatever it asks. -/
def serve (p : ℕ) (c : C) (n : ℕ) (i : I) : List (Act I C E) :=
  .spawn p c :: List.replicate n (.exec p i)

omit [DecidableEq R] in
/-- No process is running. -/
def idle (d : D) : Sys R A I N D X C := ⟨d, fun _ => none, fun _ => none⟩

/-- The states of the runs from `d₀` all of whose steps meet `ok`, a condition
on what happens and the state it happens in. -/
inductive ReachableBy (ok : Act I C E → Sys R A I N D X C → Prop) (d₀ : D) :
    Sys R A I N D X C → Prop where
  /-- nothing has happened yet -/
  | start : ReachableBy ok d₀ (idle d₀)
  /-- one more step -/
  | step {s s' : Sys R A I N D X C} {a : Act I C E} :
      ReachableBy ok d₀ s → ok a s → M.step a s = some s' → ReachableBy ok d₀ s'

/-- The states of all runs from `d₀`. -/
abbrev Reachable (d₀ : D) : Sys R A I N D X C → Prop := M.ReachableBy (fun _ _ => True) d₀

/-- `s'` comes after `s` in a run all of whose steps meet `ok`. -/
abbrev LaterBy (ok : Act I C E → Sys R A I N D X C → Prop) :
    Sys R A I N D X C → Sys R A I N D X C → Prop :=
  Relation.ReflTransGen fun s s' => ∃ a, ok a s ∧ M.step a s = some s'

/-- `s'` comes after `s` in some run. -/
abbrev Later : Sys R A I N D X C → Sys R A I N D X C → Prop := M.LaterBy fun _ _ => True

/-- The step `a` from `s` is a commit of the process `pr`. -/
def Commits (a : Act I C E) (s : Sys R A I N D X C) (pr : Proc R A I N D X C) : Prop :=
  ∃ p i, a = .exec p i ∧ s.proc p = some pr ∧ pr.prog.isCommit = true

omit [DecidableEq R] in
/-- One process takes a step. -/
theorem Commits.unique {a : Act I C E} {s : Sys R A I N D X C} {pr pr' : Proc R A I N D X C}
    (h : Commits a s pr) (h' : Commits a s pr') : pr = pr' := by
  obtain ⟨p, i, rfl, hp, -⟩ := h
  obtain ⟨p', i', ha, hp', -⟩ := h'
  cases ha
  exact Option.some.inj (hp.symm.trans hp')

variable {M}

/-- A commit goes through, or changes nothing. -/
theorem Commits.replay {a : Act I C E} {s s' : Sys R A I N D X C} {pr : Proc R A I N D X C}
    (h : Commits a s pr) (hs : M.step a s = some s') :
    s'.db = s.db ∨ M.schema.replay pr.pending s.db = .ok s'.db := by
  obtain ⟨p, i, rfl, hp, hprog⟩ := h
  obtain ⟨pr₁, hp₁, hexec⟩ := Option.bind_eq_some_iff.mp hs
  obtain rfl := Option.some.inj (hp.symm.trans hp₁)
  obtain ⟨c, prog, pending, mark⟩ := pr
  cases prog with
  | commit k =>
    simp only [exec] at hexec
    split at hexec
    · rename_i d hd
      obtain rfl := Option.some.inj hexec
      exact .inr hd
    · obtain rfl := Option.some.inj hexec
      exact .inl rfl
  | _ => cases hprog

theorem ReachableBy.reachable {ok : Act I C E → Sys R A I N D X C → Prop} {d₀ : D}
    {s : Sys R A I N D X C} (h : M.ReachableBy ok d₀ s) : M.Reachable d₀ s := by
  induction h with
  | start => exact .start
  | step _ _ hs ih => exact .step ih trivial hs

omit [DecidableEq R] in
theorem free_of_owner {p : ℕ} {r : R} {s : Sys R A I N D X C} (h : s.owner r = some p) :
    s.free p r = true := by
  simp [Sys.free, h]

theorem acquire_of_owner {p : ℕ} {r : R} {s : Sys R A I N D X C} (h : s.owner r = some p) :
    s.acquire p [r] = s := by
  have howner : (fun r' => if r' ∈ [r] then some p else s.owner r') = s.owner := by
    funext r'
    by_cases hr : r' = r
    · simp [hr, h]
    · simp [hr]
  rw [Sys.acquire, howner]

/-- A row that the process holds is locked at once. -/
theorem exec_lock_held {p : ℕ} {i : I} {s : Sys R A I N D X C} {c : C} {r : R} {q : D → Bool}
    {k : Bool → Prog R A I N D X Unit} {pending : List A} {mark : Option N}
    (hr : s.owner r = some p) (hq : q (M.schema.view pending s.db) = true) :
    M.exec p i s ⟨c, .lock r q k, pending, mark⟩ = some (s.put p ⟨c, k true, pending, mark⟩) := by
  simp only [exec, hq, if_true, free_of_owner hr, acquire_of_owner hr]

/-- A row that the process holds is written at once. -/
theorem exec_write_held {p : ℕ} {i : I} {s : Sys R A I N D X C} {c : C} {r : R} {a : A}
    {k : Bool → Prog R A I N D X Unit} {pending : List A} {mark : Option N}
    (ha : M.schema.target a = some r) (hr : s.owner r = some p)
    (hcheck : M.schema.check a (M.schema.view pending s.db) = true) :
    M.exec p i s ⟨c, .write a k, pending, mark⟩ =
      some (s.put p ⟨c, k true, pending ++ [a], mark⟩) := by
  simp [exec, ha, hcheck, free_of_owner hr, acquire_of_owner hr]

/-- A commit that goes through. -/
theorem exec_commit_ok {p : ℕ} {i : I} {s : Sys R A I N D X C} {c : C} {d : D}
    {k : Option A → Prog R A I N D X Unit} {pending : List A} {mark : Option N}
    (h : M.schema.replay pending s.db = .ok d) :
    M.exec p i s ⟨c, .commit k, pending, mark⟩ =
      some ((({ s with db := d }).release p).put p ⟨c, k none, [], mark⟩) := by
  simp only [exec, h]

/-- What one instruction of a process leads to, if it does not end the process. -/
structure Leads (s' : Sys R A I N D X C) (p : ℕ) (s : Sys R A I N D X C)
    (pr pr' : Proc R A I N D X C) : Prop where
  /-- the other processes are as they were -/
  proc : s'.proc = Function.update s.proc p (some pr')
  /-- it goes on serving its call -/
  call : pr'.call = pr.call
  /-- with what is left of its program -/
  prog : pr.prog.Leads pr'.prog
  /-- a statement is added to those pending, or the transaction is over -/
  pending : pr'.pending = [] ∨ pr'.pending = pr.pending ∨
    ∃ a k, pr.prog = .write a k ∧ pr'.pending = pr.pending ++ [a]

/-- **One instruction**, by what it does to the processes. -/
theorem exec_leads {p : ℕ} {i : I} {s s' : Sys R A I N D X C} {pr : Proc R A I N D X C}
    (h : M.exec p i s pr = some s') : s' = s.drop p ∨ ∃ pr', Leads s' p s pr pr' := by
  obtain ⟨c, prog, pending, mark⟩ := pr
  cases prog with
  | ret a => exact .inl (Option.some.inj h).symm
  | raise x => exact .inl (Option.some.inj h).symm
  | ask k =>
    obtain rfl := Option.some.inj h
    exact .inr ⟨_, rfl, rfl, .ask k i, .inr (.inl rfl)⟩
  | read k =>
    obtain rfl := Option.some.inj h
    exact .inr ⟨_, rfl, rfl, .read k _, .inr (.inl rfl)⟩
  | lock r q k =>
    simp only [exec] at h
    split at h
    · split at h
      · obtain rfl := Option.some.inj h
        exact .inr ⟨_, rfl, rfl, .lock r q k true, .inr (.inl rfl)⟩
      · cases h
    · obtain rfl := Option.some.inj h
      exact .inr ⟨_, rfl, rfl, .lock r q k false, .inr (.inl rfl)⟩
  | lockSkip rs n k =>
    obtain rfl := Option.some.inj h
    exact .inr ⟨_, rfl, rfl, .lockSkip rs n k _, .inr (.inl rfl)⟩
  | write a k =>
    simp only [exec] at h
    split at h
    · split at h
      · obtain rfl := Option.some.inj h
        exact .inr ⟨_, rfl, rfl, .write a k true, .inr (.inr ⟨a, k, rfl, rfl⟩)⟩
      · obtain rfl := Option.some.inj h
        exact .inr ⟨_, rfl, rfl, .write a k false, .inr (.inl rfl)⟩
    · cases h
  | commit k =>
    simp only [exec] at h
    split at h
    · obtain rfl := Option.some.inj h
      exact .inr ⟨_, rfl, rfl, .commit k none, .inl rfl⟩
    · obtain rfl := Option.some.inj h
      exact .inr ⟨_, rfl, rfl, .commit k (some _), .inl rfl⟩
  | rollback k =>
    obtain rfl := Option.some.inj h
    exact .inr ⟨_, rfl, rfl, .rollback k, .inl rfl⟩
  | note n k =>
    obtain rfl := Option.some.inj h
    exact .inr ⟨_, rfl, rfl, .note n k, .inr (.inl rfl)⟩

/-- An instruction of one process leaves the other processes alone. -/
theorem exec_proc_ne {p q : ℕ} (hqp : q ≠ p) {i : I} {s s' : Sys R A I N D X C}
    {pr : Proc R A I N D X C} (h : M.exec p i s pr = some s') : s'.proc q = s.proc q := by
  rcases exec_leads h with rfl | ⟨pr', hleads⟩
  · exact Function.update_of_ne hqp ..
  · rw [hleads.proc, Function.update_of_ne hqp]

/-- A process that goes on after an instruction. -/
theorem leads_of_exec {p : ℕ} {i : I} {s s' : Sys R A I N D X C} {pr pr' : Proc R A I N D X C}
    (h : M.exec p i s pr = some s') (hp : s'.proc p = some pr') : Leads s' p s pr pr' := by
  rcases exec_leads h with rfl | ⟨pr₁, hleads⟩
  · simp at hp
  · rw [hleads.proc, Function.update_self] at hp
    exact Option.some.inj hp ▸ hleads

/-- A process that does not run begins with a call only. -/
theorem step_proc_none {q : ℕ} {a : Act I C E} {s s' : Sys R A I N D X C}
    (h : M.step a s = some s') (hq : s.proc q = none) (ha : ∀ c, a ≠ .spawn q c) :
    s'.proc q = none := by
  cases a with
  | spawn p c =>
    simp only [step] at h
    split at h
    · obtain rfl := Option.some.inj h
      exact (Function.update_of_ne (fun hqp => ha c (by rw [hqp])) ..).trans hq
    · cases h
  | exec p i =>
    obtain ⟨pr, hp, hexec⟩ := Option.bind_eq_some_iff.mp h
    exact (exec_proc_ne (fun hqp => by rw [hqp, hp] at hq; cases hq) hexec).trans hq
  | crash p =>
    obtain ⟨pr, hp, rfl⟩ := Option.map_eq_some_iff.mp h
    exact (Function.update_of_ne (fun hqp => by rw [hqp, hp] at hq; cases hq) ..).trans hq
  | env e =>
    obtain rfl := Option.some.inj h
    exact hq

/-- A run that can be taken leads to its last state. -/
theorem LaterBy.of_runBy {ok : Act I C E → Sys R A I N D X C → Prop}
    {test : Act I C E → Sys R A I N D X C → Bool} (hok : ∀ a s, test a s = true → ok a s)
    {l : List (Act I C E)} :
    ∀ {s s' : Sys R A I N D X C}, M.runBy test l s = some s' → M.LaterBy ok s s' := by
  induction l with
  | nil =>
    intro s s' h
    obtain rfl := Option.some.inj h
    exact .refl
  | cons a l ih =>
    intro s s' h
    rw [runBy] at h
    split at h
    · rename_i ht
      obtain ⟨s₁, h₁, h₂⟩ := Option.bind_eq_some_iff.mp h
      exact .head ⟨a, hok a s ht, h₁⟩ (ih h₂)
    · cases h

/-- States after a reachable state are reachable. -/
theorem ReachableBy.later {ok : Act I C E → Sys R A I N D X C → Prop} {d₀ : D}
    {s s' : Sys R A I N D X C} (h : M.ReachableBy ok d₀ s) (hl : M.LaterBy ok s s') :
    M.ReachableBy ok d₀ s' := by
  induction hl with
  | refl => exact h
  | tail _ hs ih =>
    obtain ⟨a, hok, ha⟩ := hs
    exact .step ih hok ha

/-- What holds at the start and is kept by every step holds in every state of
the runs. -/
theorem ReachableBy.invariant {ok : Act I C E → Sys R A I N D X C → Prop} {d₀ : D}
    {P : Sys R A I N D X C → Prop} (hstart : P (idle d₀))
    (hstep : ∀ {s s' a}, M.ReachableBy ok d₀ s → P s → ok a s → M.step a s = some s' → P s')
    {s : Sys R A I N D X C} (h : M.ReachableBy ok d₀ s) : P s := by
  induction h with
  | start => exact hstart
  | step h hok hs ih => exact hstep h ih hok hs

/-- What the processes write is what their programs write. -/
theorem ReachableBy.writesOnly {ok : Act I C E → Sys R A I N D X C → Prop} {d₀ : D}
    {P : C → A → Prop} (hbody : ∀ c, (M.body c).WritesOnly (P c)) {s : Sys R A I N D X C}
    (h : M.ReachableBy ok d₀ s) : ∀ p pr, s.proc p = some pr →
      pr.prog.WritesOnly (P pr.call) ∧ ∀ a ∈ pr.pending, P pr.call a := by
  refine h.invariant (P := fun s => ∀ p pr, s.proc p = some pr →
    pr.prog.WritesOnly (P pr.call) ∧ ∀ a ∈ pr.pending, P pr.call a) nofun ?_
  intro s s' a _ ih _ hs p pr hp
  cases a with
  | spawn q c =>
    simp only [Model.step] at hs
    split at hs
    · obtain rfl := Option.some.inj hs
      by_cases hpq : p = q
      · subst hpq
        rw [Sys.proc_put, Function.update_self] at hp
        cases hp
        exact ⟨hbody c, nofun⟩
      · rw [Sys.proc_put, Function.update_of_ne hpq] at hp
        exact ih p pr hp
    · cases hs
  | exec q i =>
    obtain ⟨pr₀, hpr₀, hexec⟩ := Option.bind_eq_some_iff.mp hs
    by_cases hpq : p = q
    · subst hpq
      obtain ⟨hprog, hpending⟩ := ih p pr₀ hpr₀
      have hleads := leads_of_exec hexec hp
      rw [hleads.call]
      refine ⟨hprog.leads hleads.prog, fun a ha => ?_⟩
      rcases hleads.pending with hl | hl | ⟨b, k, hb, hl⟩ <;> rw [hl] at ha
      · cases ha
      · exact hpending a ha
      · rw [hb] at hprog
        rcases List.mem_append.mp ha with ha | ha
        · exact hpending a ha
        · exact List.mem_singleton.mp ha ▸ hprog.1
    · rw [exec_proc_ne hpq hexec] at hp
      exact ih p pr hp
  | crash q =>
    obtain ⟨pr₀, hpr₀, rfl⟩ := Option.map_eq_some_iff.mp hs
    by_cases hpq : p = q
    · simp [hpq] at hp
    · rw [Sys.proc_drop, Function.update_of_ne hpq] at hp
      exact ih p pr hp
  | env e =>
    obtain rfl := Option.some.inj hs
    exact ih p pr hp

/-- A concrete run, cut in two: what a test of its middle and its last state
shows is the case of two states one of which comes after the other. -/
theorem exists_of_run {d₀ : D} (l l' : List (Act I C E))
    (p : Sys R A I N D X C → Sys R A I N D X C → Bool)
    (h : ((M.run l (idle d₀)).bind fun s => (M.run l' s).map (p s)) = some true) :
    ∃ s s', M.Reachable d₀ s ∧ M.Later s s' ∧ p s s' = true := by
  obtain ⟨s, hs, h'⟩ := Option.bind_eq_some_iff.mp h
  obtain ⟨s', hs', hp⟩ := Option.map_eq_some_iff.mp h'
  exact ⟨s, s', ReachableBy.later .start (LaterBy.of_runBy (fun _ _ _ => trivial) hs),
    LaterBy.of_runBy (fun _ _ _ => trivial) hs', hp⟩

end Model

end FinanceIntelligence
