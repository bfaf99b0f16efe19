import FinanceIntelligence.StepRuns
import Mathlib.Data.List.Nodup
import Mathlib.Data.List.Perm.Subperm

/-!
# Get or create, by concurrent callers

A general layer: a table with a unique key, and transactions that ask for the row of a
key and insert one where there is none. A call selects the row of its key; if it sees none
it inserts one in a savepoint; if the key is taken by then it selects again. Under *read
committed* a caller sees the committed rows and its own; an insert waits while another
transaction holds a row of the key that is not committed.

* `Consistent.step` — **one row for a key**, committed or not, and every call that has
  returned was given the row of its key;
* `Consistent.id_eq_iff` — two calls are given the same row exactly if their keys agree;
* `Consistent.existsUnique` — a call of a transaction that has committed leaves one row.
-/

namespace FinanceIntelligence

/-- Requests, the rows they create, and the key that both have. What a request creates depends
on other tables. -/
structure GetOrCreate (T Q K R : Type) where
  /-- the key of a request -/
  key : Q → K
  /-- the key of a row -/
  keyOf : R → K
  /-- the row that is inserted for a request; `none` where that fails -/
  create : T → Q → Option R
  /-- it has the key of the request -/
  keyOf_create : ∀ {t q r}, create t q = some r → keyOf r = key q

/-- A row of the table, and its primary key. -/
structure TableEntry (I R : Type) where
  /-- the primary key -/
  id : I
  row : R

/-- A call that has returned: what was asked, the other tables then, and the row it was given. -/
structure CallAnswer (T Q I : Type) where
  request : Q
  /-- the other tables when it was asked -/
  tables : T
  /-- the primary key of the row -/
  id : I

/-- Where a call is. -/
inductive CallPhase (T : Type) where
  /-- before its `SELECT` -/
  | ready
  /-- the `SELECT` found no row -/
  | missed (tables : T)
  /-- the `INSERT` was refused, and the savepoint is rolled back -/
  | refused (tables : T)

/-- A transaction: its calls one after the other. -/
structure RowCaller (T Q I R : Type) where
  /-- the requests of the calls that have not returned -/
  todo : List Q := []
  /-- where the first of them is -/
  phase : CallPhase T := .ready
  /-- the rows that it has inserted -/
  pending : List (TableEntry I R) := []
  /-- its calls that have returned -/
  returned : List (CallAnswer T Q I) := []

/-- The table and its callers. -/
structure RowRace (T Q I R : Type) where
  /-- the other tables -/
  tables : T
  /-- the committed rows -/
  committed : List (TableEntry I R) := []
  /-- the calls of the transactions that have committed -/
  answered : List (CallAnswer T Q I) := []
  callers : List (RowCaller T Q I R) := []

/-- What happens. -/
inductive RaceAct (T Q I R : Type) where
  /-- a transaction begins -/
  | start (requests : List Q)
  /-- the `SELECT` of a call -/
  | select (p : ℕ)
  /-- its `INSERT`, under a new primary key -/
  | insert (p : ℕ) (id : I)
  /-- its `INSERT` is refused for another reason -/
  | refuse (p : ℕ)
  /-- its second `SELECT` -/
  | reread (p : ℕ)
  /-- a call raises an exception, and its caller goes on -/
  | fail (p : ℕ)
  /-- a transaction commits -/
  | commit (p : ℕ)
  /-- a transaction is rolled back -/
  | abort (p : ℕ)
  /-- a committed row is updated; its key stays -/
  | update (id : I) (row : R)
  /-- the other tables are changed -/
  | change (tables : T)

section

variable {T Q K I R : Type}

namespace RowCaller

/-- The call returns this row. -/
def answer (c : RowCaller T Q I R) (request : Q) (tables : T) (id : I) (todo : List Q) :
    RowCaller T Q I R :=
  { c with todo, phase := .ready, returned := c.returned ++ [{ request, tables, id }] }

end RowCaller

namespace RowRace

/-- The rows that a caller sees. -/
def visible (s : RowRace T Q I R) (c : RowCaller T Q I R) : List (TableEntry I R) :=
  s.committed ++ c.pending

/-- All rows, committed or not. -/
def entries (s : RowRace T Q I R) : List (TableEntry I R) :=
  s.committed ++ s.callers.flatMap RowCaller.pending

/-- The calls that have returned in a transaction that has committed, or in the `p`-th. -/
def answers (s : RowRace T Q I R) (p : ℕ) : List (CallAnswer T Q I) :=
  s.answered ++ (s.callers[p]?).elim [] RowCaller.returned

end RowRace

/-! ## One row for a key -/

section

variable {G : GetOrCreate T Q K R} {s : RowRace T Q I R} {c : RowCaller T Q I R}

/-- Among these rows there is the one that the call was given, and it has the key of the call. -/
def Given (G : GetOrCreate T Q K R) (rows : List (TableEntry I R)) (a : CallAnswer T Q I) : Prop :=
  ∃ e ∈ rows, e.id = a.id ∧ G.keyOf e.row = G.key a.request

theorem Given.mono {rows rows' : List (TableEntry I R)} {a : CallAnswer T Q I}
    (h : Given G rows a) (hsub : ∀ e ∈ rows, e ∈ rows') : Given G rows' a := by
  obtain ⟨e, he, hid, hkey⟩ := h
  exact ⟨e, hsub e he, hid, hkey⟩

/-- **The invariant.** -/
structure Consistent (G : GetOrCreate T Q K R) (s : RowRace T Q I R) : Prop where
  /-- one row for a key, also among the rows that are not committed -/
  keys : (s.entries.map fun e => G.keyOf e.row).Nodup
  /-- one row for a primary key -/
  ids : (s.entries.map TableEntry.id).Nodup
  /-- the calls of committed transactions were given committed rows -/
  answered : ∀ a ∈ s.answered, Given G s.committed a
  /-- the calls of a transaction were given rows that it sees -/
  returned : ∀ c ∈ s.callers, ∀ a ∈ c.returned, Given G (s.visible c) a

/-- The caller at a place, and the others. -/
theorem RowRace.exists_others {p : ℕ} (h : s.callers[p]? = some c) :
    ∃ l m, s.callers = l ++ c :: m ∧ ∀ c', s.callers.set p c' = l ++ c' :: m := by
  obtain ⟨hlt, rfl⟩ := List.getElem?_eq_some_iff.mp h
  refine ⟨s.callers.take p, s.callers.drop (p + 1), ?_, fun c' => ?_⟩
  · rw [List.getElem_cons_drop, List.take_append_drop]
  · exact List.set_eq_take_append_cons_drop.trans (if_pos hlt)

/-- A row that a caller sees is one of the rows. -/
theorem RowRace.visible_subset (hc : c ∈ s.callers) : ∀ e ∈ s.visible c, e ∈ s.entries := by
  intro e he
  obtain he | he := List.mem_append.mp he
  · exact List.mem_append_left _ he
  · exact List.mem_append_right _ (List.mem_flatMap.mpr ⟨c, hc, he⟩)

/-- What is distinct for some rows is distinct for fewer. -/
theorem nodup_map_of_subperm {α β : Type} {f : α → β} {l m : List α} (h : l.Subperm m)
    (hm : (m.map f).Nodup) : (l.map f).Nodup := by
  obtain ⟨l', hperm, hsub⟩ := h
  exact (hperm.map f).nodup_iff.mp (hm.sublist (hsub.map f))

/-- **A transaction ends**, and its rows are committed or dropped. -/
theorem Consistent.ends (h : Consistent G s) {p : ℕ} (hc : s.callers[p]? = some c)
    {rows : List (TableEntry I R)} {answers : List (CallAnswer T Q I)}
    (hrows : rows.Sublist c.pending)
    (hanswers : ∀ a ∈ answers, a ∈ c.returned ∧ rows = c.pending) :
    Consistent G { s with
      committed := s.committed ++ rows
      answered := s.answered ++ answers
      callers := s.callers.set p {} } := by
  obtain ⟨l, m, hcallers, hset⟩ := RowRace.exists_others hc
  have hmem : c ∈ s.callers := List.mem_of_getElem? hc
  have hperm : (rows ++ (l.flatMap RowCaller.pending ++ m.flatMap RowCaller.pending)).Perm
      (l.flatMap RowCaller.pending ++ (rows ++ m.flatMap RowCaller.pending)) := by
    simpa only [List.append_assoc] using
      List.perm_append_comm.append_right (m.flatMap RowCaller.pending)
  have hentries : List.Subperm (s.committed ++ rows ++
      (s.callers.set p {}).flatMap RowCaller.pending) s.entries := by
    rw [hset]
    simp only [RowRace.entries, hcallers, List.flatMap_append, List.flatMap_cons, List.nil_append,
      List.append_assoc]
    refine (hperm.append_left s.committed).subperm.trans (List.Sublist.subperm ?_)
    exact ((hrows.append_right _).append_left _).append_left _
  refine ⟨nodup_map_of_subperm hentries h.keys, nodup_map_of_subperm hentries h.ids, fun a ha => ?_,
    fun c' hc' a ha => ?_⟩
  · obtain ha | ha := List.mem_append.mp ha
    · exact (h.answered a ha).mono fun e => List.mem_append_left _
    · obtain ⟨hreturned, rfl⟩ := hanswers a ha
      exact h.returned c hmem a hreturned
  · obtain hold | rfl := List.mem_or_eq_of_mem_set hc'
    · refine (h.returned c' hold a ha).mono fun e he => ?_
      obtain he | he := List.mem_append.mp he
      · exact List.mem_append_left _ (List.mem_append_left _ he)
      · exact List.mem_append_right _ he
    · exact absurd ha List.not_mem_nil

/-- A call that has returned was given a row that is there. -/
theorem Consistent.exists_entry (h : Consistent G s) {p : ℕ} {a : CallAnswer T Q I}
    (ha : a ∈ s.answers p) : ∃ e ∈ s.entries, e.id = a.id ∧ G.keyOf e.row = G.key a.request := by
  obtain ha | ha := List.mem_append.mp ha
  · exact (h.answered a ha).mono fun e => List.mem_append_left _
  · cases hc : s.callers[p]? with
    | none =>
      rw [hc] at ha
      exact absurd ha List.not_mem_nil
    | some c =>
      rw [hc] at ha
      have hmem := List.mem_of_getElem? hc
      exact (h.returned c hmem a ha).mono (RowRace.visible_subset hmem)

/-- **The same row** is given to two calls exactly if their keys agree. -/
theorem Consistent.id_eq_iff (h : Consistent G s) {p q : ℕ} {a b : CallAnswer T Q I}
    (ha : a ∈ s.answers p) (hb : b ∈ s.answers q) :
    a.id = b.id ↔ G.key a.request = G.key b.request := by
  obtain ⟨e, he, hid, hkey⟩ := h.exists_entry ha
  obtain ⟨f, hf, hid', hkey'⟩ := h.exists_entry hb
  constructor
  · intro hsame
    obtain rfl : e = f := List.inj_on_of_nodup_map h.ids he hf (hid.trans (hsame.trans hid'.symm))
    exact hkey.symm.trans hkey'
  · intro hsame
    obtain rfl : e = f :=
      List.inj_on_of_nodup_map h.keys he hf (hkey.trans (hsame.trans hkey'.symm))
    exact hid.symm.trans hid'

/-- **One row** is there for a call of a transaction that has committed. -/
theorem Consistent.existsUnique (h : Consistent G s) {a : CallAnswer T Q I} (ha : a ∈ s.answered) :
    ∃! e, e ∈ s.committed ∧ G.keyOf e.row = G.key a.request := by
  obtain ⟨e, he, -, hkey⟩ := h.answered a ha
  refine ⟨e, ⟨he, hkey⟩, fun f hf => ?_⟩
  exact List.inj_on_of_nodup_map h.keys (List.mem_append_left _ hf.1) (List.mem_append_left _ he)
    (hf.2.trans hkey.symm)

end

/-! ## Steps -/

variable [DecidableEq K] [DecidableEq I] (G : GetOrCreate T Q K R)

/-- The row under a primary key is replaced. -/
def TableEntry.update (id : I) (row : R) (e : TableEntry I R) : TableEntry I R :=
  if e.id = id then { e with row } else e

namespace RowRace

/-- The row of the key of a request. -/
def find (rows : List (TableEntry I R)) (q : Q) : Option (TableEntry I R) :=
  rows.find? fun e => G.keyOf e.row = G.key q

/-- One step of a caller; the rows that it does not see may block it. -/
def act (s : RowRace T Q I R) (c : RowCaller T Q I R) : RaceAct T Q I R → Option (RowCaller T Q I R)
  | .select _ =>
    match c.phase, c.todo with
    | .ready, q :: todo =>
      match find G (s.visible c) q with
      | some e => some (c.answer q s.tables e.id todo)
      | none => some { c with phase := .missed s.tables }
    | _, _ => none
  | .insert _ id =>
    match c.phase, c.todo with
    | .missed t, q :: todo =>
      match find G (s.visible c) q with
      | some _ => some { c with phase := .refused t }
      | none =>
        if G.key q ∈ s.entries.map (fun e => G.keyOf e.row) then none
        else if id ∈ s.entries.map TableEntry.id then none
        else (G.create t q).map fun row =>
          { c.answer q t id todo with pending := c.pending ++ [{ id, row }] }
    | _, _ => none
  | .refuse _ =>
    match c.phase with
    | .missed t => some { c with phase := .refused t }
    | _ => none
  | .reread _ =>
    match c.phase, c.todo with
    | .refused t, q :: todo =>
      (find G (s.visible c) q).map fun e => c.answer q t e.id todo
    | _, _ => none
  | .fail _ => some { c with todo := c.todo.tail, phase := .ready }
  | _ => none

/-- One step. -/
def step (s : RowRace T Q I R) : RaceAct T Q I R → Option (RowRace T Q I R)
  | .start requests => some { s with callers := s.callers ++ [{ todo := requests }] }
  | .commit p => do
    let c ← s.callers[p]?
    return { s with
      committed := s.committed ++ c.pending
      answered := s.answered ++ c.returned
      callers := s.callers.set p {} }
  | .abort p => do
    let _ ← s.callers[p]?
    return { s with callers := s.callers.set p {} }
  | .update id row => do
    let e ← s.committed.find? fun e => e.id = id
    if G.keyOf row = G.keyOf e.row then
      return { s with
        committed := s.committed.map (TableEntry.update id row) }
    else none
  | .change tables => some { s with tables }
  | a@(.select p) | a@(.insert p _) | a@(.refuse p) | a@(.reread p) | a@(.fail p) => do
    let c ← s.callers[p]?
    let c' ← s.act G c a
    return { s with callers := s.callers.set p c' }

end RowRace

variable {G} {s s' : RowRace T Q I R} {c c' : RowCaller T Q I R}

omit [DecidableEq I] in
/-- What is found has the key. -/
theorem RowRace.find_eq_some {rows : List (TableEntry I R)} {q : Q} {e : TableEntry I R}
    (h : RowRace.find G rows q = some e) : e ∈ rows ∧ G.keyOf e.row = G.key q := by
  refine ⟨List.mem_of_find?_eq_some h, ?_⟩
  simpa using List.find?_some h

/-- **A step of a caller**: it inserts nothing, and a call that returns is given a row that the
caller sees; or it inserts a row under a new key, and the call is given that one. -/
theorem RowRace.act_cases {a : RaceAct T Q I R} (h : s.act G c a = some c') :
    (c'.pending = c.pending ∧ ∀ x ∈ c'.returned, x ∈ c.returned ∨ Given G (s.visible c) x) ∨
    ∃ e, c'.pending = c.pending ++ [e] ∧
      G.keyOf e.row ∉ s.entries.map (fun e => G.keyOf e.row) ∧
      e.id ∉ s.entries.map TableEntry.id ∧
      ∀ x ∈ c'.returned, x ∈ c.returned ∨ Given G [e] x := by
  have hreturned : ∀ {x y : CallAnswer T Q I}, x ∈ c.returned ++ [y] →
      x ∈ c.returned ∨ x = y := by
    intro x y hx
    simpa using hx
  cases a with
  | select p =>
    simp only [RowRace.act] at h
    split at h
    · split at h
      · rename_i e he
        cases h
        obtain ⟨hmem, hkey⟩ := RowRace.find_eq_some he
        refine .inl ⟨rfl, fun x hx => (hreturned hx).imp_right ?_⟩
        rintro rfl
        exact ⟨e, hmem, rfl, hkey⟩
      · cases h
        exact .inl ⟨rfl, fun x => .inl⟩
    · cases h
  | insert p id =>
    simp only [RowRace.act] at h
    split at h
    · split at h
      · cases h
        exact .inl ⟨rfl, fun x => .inl⟩
      · split at h
        · cases h
        · rename_i hkey
          split at h
          · cases h
          · rename_i hid
            obtain ⟨row, hrow, rfl⟩ := Option.map_eq_some_iff.mp h
            have hsame := G.keyOf_create hrow
            refine .inr ⟨{ id, row }, rfl, hsame ▸ hkey, hid, fun x hx => ?_⟩
            refine (hreturned hx).imp_right ?_
            rintro rfl
            exact ⟨_, List.mem_singleton_self _, rfl, hsame⟩
    · cases h
  | refuse p =>
    simp only [RowRace.act] at h
    split at h
    · cases h
      exact .inl ⟨rfl, fun x => .inl⟩
    · cases h
  | reread p =>
    simp only [RowRace.act] at h
    split at h
    · obtain ⟨e, he, rfl⟩ := Option.map_eq_some_iff.mp h
      obtain ⟨hmem, hkey⟩ := RowRace.find_eq_some he
      refine .inl ⟨rfl, fun x hx => (hreturned hx).imp_right ?_⟩
      rintro rfl
      exact ⟨e, hmem, rfl, hkey⟩
    · cases h
  | fail p =>
    cases h
    exact .inl ⟨rfl, fun x => .inl⟩
  | _ => cases h

/-- **A caller takes a step.** -/
theorem Consistent.acts (h : Consistent G s) {p : ℕ} (hc : s.callers[p]? = some c)
    {a : RaceAct T Q I R} (hact : s.act G c a = some c') :
    Consistent G { s with callers := s.callers.set p c' } := by
  obtain ⟨l, m, hcallers, hset⟩ := RowRace.exists_others hc
  have hmem : c ∈ s.callers := List.mem_of_getElem? hc
  have hreturned : (∀ e ∈ c.pending, e ∈ c'.pending) →
      (∀ x ∈ c'.returned, x ∈ c.returned ∨ Given G (s.visible c') x) →
      ∀ d ∈ s.callers.set p c', ∀ x ∈ d.returned, Given G (s.committed ++ d.pending) x := by
    intro hpending hgiven d hd x hx
    obtain hold | rfl := List.mem_or_eq_of_mem_set hd
    · exact h.returned d hold x hx
    · obtain hx | hx := hgiven x hx
      · refine (h.returned c hmem x hx).mono fun e he => ?_
        obtain he | he := List.mem_append.mp he
        · exact List.mem_append_left _ he
        · exact List.mem_append_right _ (hpending e he)
      · exact hx
  obtain ⟨hpending, hgiven⟩ | ⟨e, hpending, hkey, hid, hgiven⟩ := RowRace.act_cases hact
  · have hentries : s.committed ++ (s.callers.set p c').flatMap RowCaller.pending = s.entries := by
      rw [hset]
      simp only [RowRace.entries, hcallers, List.flatMap_append, List.flatMap_cons, hpending]
    refine ⟨?_, ?_, h.answered, hreturned (fun e he => hpending ▸ he) ?_⟩
    · rw [RowRace.entries, hentries]
      exact h.keys
    · rw [RowRace.entries, hentries]
      exact h.ids
    · intro x hx
      rw [RowRace.visible, hpending]
      exact hgiven x hx
  · have hentries : (s.committed ++ (s.callers.set p c').flatMap RowCaller.pending).Perm
        (e :: s.entries) := by
      have hmiddle : (s.committed ++ l.flatMap RowCaller.pending ++ c.pending ++
          e :: m.flatMap RowCaller.pending).Perm _ := List.perm_middle
      rw [hset]
      simpa [RowRace.entries, hcallers, hpending] using hmiddle
    refine ⟨?_, ?_, h.answered, hreturned (fun x hx => ?_) fun x hx => ?_⟩
    · exact (hentries.map _).nodup_iff.mpr (List.nodup_cons.mpr ⟨hkey, h.keys⟩)
    · exact (hentries.map _).nodup_iff.mpr (List.nodup_cons.mpr ⟨hid, h.ids⟩)
    · rw [hpending]
      exact List.mem_append_left _ hx
    · refine (hgiven x hx).imp_right fun hg => hg.mono fun y hy => ?_
      rw [RowRace.visible, hpending]
      exact List.mem_append_right _ (List.mem_append_right _ hy)

omit [DecidableEq K] in
/-- **A row is updated.** -/
theorem Consistent.updates (h : Consistent G s) {e : TableEntry I R} (he : e ∈ s.committed)
    {row : R} (hkey : G.keyOf row = G.keyOf e.row) :
    Consistent G { s with committed := s.committed.map (TableEntry.update e.id row) } := by
  have hids : (s.committed.map TableEntry.id).Nodup := by
    have hall := h.ids
    rw [RowRace.entries, List.map_append] at hall
    exact (List.nodup_append.mp hall).1
  have hsame : ∀ e' ∈ s.committed, (e'.update e.id row).id = e'.id ∧
      G.keyOf (e'.update e.id row).row = G.keyOf e'.row := by
    intro e' he'
    unfold TableEntry.update
    split
    · -- the row under this primary key is the one that is updated
      obtain rfl : e' = e := List.inj_on_of_nodup_map hids he' he ‹_›
      exact ⟨rfl, hkey⟩
    · exact ⟨rfl, rfl⟩
  have hgiven : ∀ (rows : List (TableEntry I R)) a, Given G (s.committed ++ rows) a →
      Given G (s.committed.map (TableEntry.update e.id row) ++ rows) a := by
    rintro rows a ⟨e', he', hid, hkey'⟩
    obtain he' | he' := List.mem_append.mp he'
    · obtain ⟨hid', hkey''⟩ := hsame e' he'
      exact ⟨_, List.mem_append_left _ (List.mem_map_of_mem he'), hid'.trans hid,
        hkey''.trans hkey'⟩
    · exact ⟨e', List.mem_append_right _ he', hid, hkey'⟩
  have hentries : ∀ {β : Type} (f : TableEntry I R → β),
      (∀ e' ∈ s.committed, f (e'.update e.id row) = f e') →
        (RowRace.entries { s with
          committed := s.committed.map (TableEntry.update e.id row) }).map f = s.entries.map f := by
    intro β f hf
    simp only [RowRace.entries, List.map_append, List.map_map]
    exact congrArg (· ++ _) (List.map_congr_left hf)
  refine ⟨?_, ?_, fun a ha => ?_, fun c hc a ha => hgiven _ a (h.returned c hc a ha)⟩
  · rw [hentries _ fun e' he' => (hsame e' he').2]
    exact h.keys
  · rw [hentries _ fun e' he' => (hsame e' he').1]
    exact h.ids
  · simpa using hgiven [] a (by simpa using h.answered a ha)

/-- **A step** of any caller keeps the invariant. -/
theorem Consistent.step (h : Consistent G s) {a : RaceAct T Q I R} (hstep : s.step G a = some s') :
    Consistent G s' := by
  have hcaller : ∀ p, ((s.callers[p]?).bind fun c => (s.act G c a).bind fun c' =>
      some { s with callers := s.callers.set p c' }) = some s' → Consistent G s' := by
    intro p hp
    obtain ⟨c, hc, hp⟩ := Option.bind_eq_some_iff.mp hp
    obtain ⟨c', hact, hp⟩ := Option.bind_eq_some_iff.mp hp
    cases hp
    exact h.acts hc hact
  cases a with
  | start requests =>
    cases hstep
    have hentries : s.committed ++ List.flatMap RowCaller.pending
        (s.callers ++ [{ todo := requests }]) = s.entries := by
      simp [RowRace.entries]
    refine ⟨?_, ?_, h.answered, fun c hc => ?_⟩
    · rw [RowRace.entries, hentries]
      exact h.keys
    · rw [RowRace.entries, hentries]
      exact h.ids
    · obtain hc | hc := List.mem_append.mp hc
      · exact h.returned c hc
      · obtain rfl := List.mem_singleton.mp hc
        exact fun a ha => absurd ha List.not_mem_nil
  | commit p =>
    obtain ⟨c, hc, hstep⟩ := Option.bind_eq_some_iff.mp hstep
    cases hstep
    exact h.ends hc (List.Sublist.refl _) fun a ha => ⟨ha, rfl⟩
  | abort p =>
    obtain ⟨c, hc, hstep⟩ := Option.bind_eq_some_iff.mp hstep
    cases hstep
    simpa using h.ends hc (List.nil_sublist _) fun a ha => absurd ha List.not_mem_nil
  | update id row =>
    obtain ⟨e, he, hstep⟩ := Option.bind_eq_some_iff.mp hstep
    split at hstep
    · cases hstep
      obtain rfl : e.id = id := by simpa using List.find?_some he
      exact h.updates (List.mem_of_find?_eq_some he) ‹_›
    · cases hstep
  | change tables =>
    cases hstep
    exact ⟨h.keys, h.ids, h.answered, h.returned⟩
  | select p => exact hcaller p hstep
  | insert p id => exact hcaller p hstep
  | refuse p => exact hcaller p hstep
  | reread p => exact hcaller p hstep
  | fail p => exact hcaller p hstep

/-- **Every run** from an empty table. -/
theorem Consistent.run {tables : T} {acts : List (RaceAct T Q I R)}
    (hrun : runSteps (RowRace.step G) { tables } acts = some s) : Consistent G s := by
  have hempty : Consistent G ({ tables } : RowRace T Q I R) :=
    ⟨List.nodup_nil, List.nodup_nil, fun _ ha => absurd ha List.not_mem_nil,
      fun _ hc => absurd hc List.not_mem_nil⟩
  exact AlongRun.invariant (P := fun _ _ _ => True) (fun _ _ _ h hstep _ => h.step hstep)
    (AlongRun.of_forall (fun _ _ _ _ => trivial) _ _) hempty hrun

end

end FinanceIntelligence
