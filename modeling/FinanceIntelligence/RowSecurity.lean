import FinanceIntelligence.StepRuns
import Mathlib.Data.List.Basic
import Mathlib.Data.Option.Basic
import Mathlib.Logic.Function.Basic

/-!
# Row-level security under pooled connections

A general layer: many clients share the rows of one database and the connections of one pool.
Every row has an owner, and a policy lets a statement see and write only the rows of the owner
that the current setting of its connection names.

* `SecuredDb.step` — **the server**: transactions of the clients, settings that last for a
  transaction or beyond it, statements under the policy, locks on rows.
* `SecuredDb.Inv` — what holds as long as every client sets nothing but its own owner, and only
  for a transaction.
* `SecuredDb.view_run` — **a server of its own**: what the clients of one owner see and do in a
  run is a run of these clients alone, on the rows of this owner alone.
-/

namespace FinanceIntelligence

variable {K O C : Type}

/-! ## Rows and their changes -/

/-- A row of a table with row-level security. -/
structure OwnedRow (K O C : Type) where
  /-- the primary key -/
  id : K
  /-- who owns it -/
  owner : O
  /-- the table and its other columns -/
  columns : C
deriving DecidableEq

/-- What a statement does to one row. -/
inductive RowChange (K O C : Type) where
  /-- the row is written, in place of the one with its key -/
  | put (row : OwnedRow K O C)
  /-- the row with a key is deleted -/
  | delete (id : K)

namespace RowChange

/-- The key of the row. -/
def id : RowChange K O C → K
  | put row => row.id
  | delete id => id

/-- The owner of the row that is written, if one is. -/
def owner : RowChange K O C → Option O
  | put row => some row.owner
  | delete _ => none

variable [DecidableEq K]

/-- The rows after a change. -/
def apply (rows : List (OwnedRow K O C)) : RowChange K O C → List (OwnedRow K O C)
  | put row => rows.filter (fun r => r.id ≠ row.id) ++ [row]
  | delete id => rows.filter fun r => r.id ≠ id

/-- The rows after changes, one after the other. -/
def overlay (pending : List (RowChange K O C)) (rows : List (OwnedRow K O C)) :
    List (OwnedRow K O C) :=
  pending.foldl apply rows

theorem mem_apply {ch : RowChange K O C} {rows : List (OwnedRow K O C)} {row : OwnedRow K O C} :
    row ∈ ch.apply rows ↔ (row ∈ rows ∧ row.id ≠ ch.id) ∨ ch = .put row := by
  cases ch with
  | put r =>
    simp only [apply, id, List.mem_append, List.mem_filter, decide_eq_true_eq, List.mem_singleton,
      put.injEq]
    exact or_congr Iff.rfl eq_comm
  | delete k => simp [apply, id]

/-- A row after changes is an old one or one of those written. -/
theorem of_mem_overlay {pending : List (RowChange K O C)} {rows : List (OwnedRow K O C)}
    {row : OwnedRow K O C} (h : row ∈ overlay pending rows) : row ∈ rows ∨ .put row ∈ pending := by
  induction pending generalizing rows with
  | nil => exact .inl h
  | cons ch pending ih =>
    rcases ih h with hrow | hput
    · rcases mem_apply.mp hrow with ⟨hrow, -⟩ | rfl
      · exact .inl hrow
      · exact .inr List.mem_cons_self
    · exact .inr (List.mem_cons_of_mem _ hput)

/-- Keys name one row each. -/
def UniqueIds (rows : List (OwnedRow K O C)) : Prop :=
  ∀ r ∈ rows, ∀ r' ∈ rows, r.id = r'.id → r = r'

theorem UniqueIds.apply {rows : List (OwnedRow K O C)} (h : UniqueIds rows)
    (ch : RowChange K O C) : UniqueIds (ch.apply rows) := by
  intro r hr r' hr' hid
  rcases mem_apply.mp hr with ⟨hr, hne⟩ | rfl <;> rcases mem_apply.mp hr' with ⟨hr', hne'⟩ | heq
  · exact h r hr r' hr' hid
  · subst heq
    exact absurd hid hne
  · exact absurd hid.symm hne'
  · exact put.inj heq

theorem UniqueIds.overlay {rows : List (OwnedRow K O C)} (h : UniqueIds rows)
    (pending : List (RowChange K O C)) : UniqueIds (overlay pending rows) := by
  induction pending generalizing rows with
  | nil => exact h
  | cons ch pending ih => exact ih (h.apply ch)

/-! ### The rows of one owner -/

variable [DecidableEq O]

/-- The rows of an owner. -/
def ofOwner (A : O) (rows : List (OwnedRow K O C)) : List (OwnedRow K O C) :=
  rows.filter fun r => r.owner = A

omit [DecidableEq K] in
theorem mem_ofOwner {A : O} {rows : List (OwnedRow K O C)} {row : OwnedRow K O C} :
    row ∈ ofOwner A rows ↔ row ∈ rows ∧ row.owner = A := by
  simp [ofOwner]

/-- A change does to the rows of an owner what it does to all of them. -/
theorem ofOwner_apply (A : O) (ch : RowChange K O C) (rows : List (OwnedRow K O C)) :
    ofOwner A (ch.apply rows) = ofOwner A (ch.apply (ofOwner A rows)) := by
  cases ch with
  | put row =>
    simp only [apply, ofOwner, List.filter_append, List.filter_filter]
    congr 1
    refine List.filter_congr fun r _ => ?_
    rw [Bool.and_comm (decide (r.id ≠ row.id)), ← Bool.and_assoc, Bool.and_self]
  | delete k =>
    simp only [apply, ofOwner, List.filter_filter]
    refine List.filter_congr fun r _ => ?_
    rw [Bool.and_comm (decide (r.id ≠ k)), ← Bool.and_assoc, Bool.and_self]

theorem ofOwner_overlay (A : O) (pending : List (RowChange K O C)) (rows : List (OwnedRow K O C)) :
    ofOwner A (overlay pending rows) = ofOwner A (overlay pending (ofOwner A rows)) := by
  induction pending generalizing rows with
  | nil => simp [overlay, ofOwner]
  | cons ch pending ih =>
    change ofOwner A (overlay pending (ch.apply rows)) =
      ofOwner A (overlay pending (ch.apply (ofOwner A rows)))
    rw [ih (ch.apply rows), ofOwner_apply, ← ih]

/-- Changes that write rows of an owner only leave rows of this owner. -/
theorem ofOwner_overlay_own {A : O} {pending : List (RowChange K O C)}
    (hown : ∀ ch ∈ pending, ∀ o ∈ ch.owner, o = A) (rows : List (OwnedRow K O C)) :
    ofOwner A (overlay pending rows) = overlay pending (ofOwner A rows) := by
  rw [ofOwner_overlay]
  refine List.filter_eq_self.mpr fun row hrow => decide_eq_true ?_
  rcases of_mem_overlay hrow with hrow | hput
  · exact (mem_ofOwner.mp hrow).2
  · exact hown _ hput _ rfl

/-- Changes of keys that no row of an owner has, and that write none of its rows, change nothing
of these. -/
theorem ofOwner_overlay_other {A : O} {pending : List (RowChange K O C)}
    {rows : List (OwnedRow K O C)} (hown : ∀ ch ∈ pending, ∀ o ∈ ch.owner, o ≠ A)
    (hids : ∀ ch ∈ pending, ∀ row ∈ rows, row.id = ch.id → row.owner ≠ A) :
    ofOwner A (overlay pending rows) = ofOwner A rows := by
  induction pending generalizing rows with
  | nil => rfl
  | cons ch pending ih =>
    change ofOwner A (overlay pending (ch.apply rows)) = _
    rw [ih (fun c hc => hown c (List.mem_cons_of_mem _ hc))]
    · have hkeep : ∀ r ∈ rows, (r.owner = A ∧ r.id ≠ ch.id) ↔ r.owner = A := fun r hr =>
        ⟨And.left, fun ho => ⟨ho, fun hid => hids ch List.mem_cons_self r hr hid ho⟩⟩
      cases ch with
      | put row =>
        have hrow : row.owner ≠ A := hown _ List.mem_cons_self _ rfl
        simp only [apply, ofOwner, List.filter_append, List.filter_filter]
        rw [List.filter_singleton, decide_eq_false hrow, cond_false, List.append_nil]
        refine List.filter_congr fun r hr => ?_
        rw [← Bool.decide_and, decide_eq_decide]
        exact hkeep r hr
      | delete k =>
        simp only [apply, ofOwner, List.filter_filter]
        refine List.filter_congr fun r hr => ?_
        rw [← Bool.decide_and, decide_eq_decide]
        exact hkeep r hr
    · intro c hc row hrow hid
      rcases mem_apply.mp hrow with ⟨hrow, -⟩ | rfl
      · exact hids c (List.mem_cons_of_mem _ hc) row hrow hid
      · exact hown _ List.mem_cons_self _ rfl

end RowChange

/-! ## The server -/

/-- What a client is told. -/
inductive SqlAnswer (K O C : Type) where
  /-- the statement is done -/
  | done
  /-- the statement raises -/
  | refused
  /-- the rows of a query -/
  | rows (l : List (OwnedRow K O C))

/-- A transaction of a client. -/
structure ClientTxn (K O C : Type) where
  /-- the connection of the pool that it has -/
  connection : ℕ
  /-- the current setting; `none` is unset or blank -/
  setting : Option O
  /-- the setting that its connection has once the transaction is committed -/
  kept : Option O
  /-- changes that are not committed -/
  pending : List (RowChange K O C) := []
  /-- a statement has raised -/
  failed : Bool := false

/-- A statement, or an end of a transaction. -/
inductive SqlCall (K O C : Type) where
  /-- `SELECT set_config(…, value, is_local)` -/
  | setConfig (value : Option O) (isLocal : Bool)
  /-- `SELECT … WHERE` -/
  | select (p : OwnedRow K O C → Bool)
  /-- `INSERT` of a row with a key drawn afresh -/
  | insert (row : OwnedRow K O C)
  /-- `UPDATE` and `DELETE`: what becomes of each row that is seen; `some none` deletes it -/
  | change (f : OwnedRow K O C → Option (Option (O × C)))
  | commit
  /-- `ROLLBACK`, also by the pool when a connection is given back -/
  | rollback

/-- A call of a client, with the connection it gets if it has none. -/
structure ClientCall (K O C : Type) where
  client : ℕ
  /-- a connection of the pool -/
  connection : ℕ
  call : SqlCall K O C

/-- The database and its pool of connections. -/
structure SecuredDb (K O C : Type) where
  /-- the committed rows -/
  rows : List (OwnedRow K O C)
  /-- the settings of the connections beyond transactions -/
  settings : ℕ → Option O := fun _ => none
  /-- which client has a connection -/
  holder : ℕ → Option ℕ := fun _ => none
  /-- which client has changed the row of a key without committing -/
  locks : K → Option ℕ := fun _ => none
  /-- the open transactions, by client -/
  txns : ℕ → Option (ClientTxn K O C) := fun _ => none
  /-- what each client has been told -/
  answers : ℕ → List (SqlAnswer K O C) := fun _ => []

namespace SecuredDb

variable [DecidableEq K] [DecidableEq O]

section Server

variable (s : SecuredDb K O C) (r : ℕ)

/-- Tell a client. -/
def answer (a : SqlAnswer K O C) : SecuredDb K O C :=
  { s with answers := Function.update s.answers r (s.answers r ++ [a]) }

/-- A client's transaction goes on. -/
def put (t : ClientTxn K O C) : SecuredDb K O C :=
  { s with
    txns := Function.update s.txns r (some t)
    holder := Function.update s.holder t.connection (some r) }

/-- A client locks rows. -/
def lock (ids : List K) : SecuredDb K O C :=
  { s with locks := fun k => if k ∈ ids then some r else s.locks k }

/-- A client's transaction ends: its connection is given back, its locks are released. -/
def finish (t : ClientTxn K O C) : SecuredDb K O C :=
  { s with
    txns := Function.update s.txns r none
    holder := Function.update s.holder t.connection none
    locks := fun k => if s.locks k = some r then none else s.locks k }

/-- What a transaction leaves if it is committed. -/
def apply (t : ClientTxn K O C) : SecuredDb K O C :=
  { s with
    rows := RowChange.overlay t.pending s.rows
    settings := Function.update s.settings t.connection t.kept }

/-- The transaction that a statement runs in: the client's own, or a new one on a connection that
is free. -/
def begin (c : ℕ) : Option (ClientTxn K O C) :=
  match s.txns r with
  | some t => some t
  | none =>
    if (s.holder c).isNone then
      some { connection := c, setting := s.settings c, kept := s.settings c }
    else none

/-- The rows that the policy lets a transaction see: those of the owner that is set. -/
def visible (t : ClientTxn K O C) : List (OwnedRow K O C) :=
  (RowChange.overlay t.pending s.rows).filter fun row => t.setting = some row.owner

/-- Some row, committed or not, has a key. -/
def inUse (k : K) : Bool := s.rows.any (fun row => row.id = k) || (s.locks k).isSome

/-- What becomes of a row. -/
def changeOf (f : OwnedRow K O C → Option (Option (O × C))) (row : OwnedRow K O C) :
    Option (RowChange K O C) :=
  (f row).map fun
    | none => .delete row.id
    | some (owner, columns) => .put ⟨row.id, owner, columns⟩

/-- The policy on rows that are written: their owner is the one that is set. -/
def checks (t : ClientTxn K O C) (changes : List (RowChange K O C)) : Bool :=
  changes.all fun ch => ch.owner.all fun o => t.setting = some o

/-- A statement in a transaction that has not failed. It waits while another client holds the lock
of a row that it would change. -/
def execute (t : ClientTxn K O C) : SqlCall K O C → Option (SecuredDb K O C)
  | .setConfig value isLocal =>
    some ((s.put r { t with
      setting := value
      kept := if isLocal then t.kept else value }).answer r .done)
  | .select p => some ((s.put r t).answer r (.rows ((s.visible t).filter p)))
  | .insert row =>
    if s.inUse row.id then none
    else if checks t [.put row] then
      some (((s.lock r [row.id]).put r { t with
        pending := t.pending ++ [.put row] }).answer r .done)
    else some ((s.put r { t with failed := true }).answer r .refused)
  | .change f =>
    let changes := (s.visible t).filterMap (changeOf f)
    if changes.any fun ch => (s.locks ch.id).any (· ≠ r) then none
    else if checks t changes then
      some (((s.lock r (changes.map RowChange.id)).put r { t with
        pending := t.pending ++ changes }).answer r .done)
    else some ((s.put r { t with failed := true }).answer r .refused)
  | .commit | .rollback => none

end Server

/-- One call of one client. -/
def step (s : SecuredDb K O C) (a : ClientCall K O C) : Option (SecuredDb K O C) :=
  match a.call with
  | .commit =>
    match s.txns a.client with
    | none => some (s.answer a.client .done)
    | some t =>
      if t.failed then some ((s.finish a.client t).answer a.client .refused)
      else some (((s.apply t).finish a.client t).answer a.client .done)
  | .rollback =>
    match s.txns a.client with
    | none => some (s.answer a.client .done)
    | some t => some ((s.finish a.client t).answer a.client .done)
  | call =>
    (s.begin a.client a.connection).bind fun t =>
      if t.failed then some ((s.put a.client t).answer a.client .refused)
      else s.execute a.client t call

/-! ### Clients that set their own owner -/

/-- A client sets nothing but its own owner, and only for a transaction. -/
def Scoped (owner : ℕ → O) (a : ClientCall K O C) : Prop :=
  match a.call with
  | .setConfig value isLocal => isLocal = true ∧ ∀ o, value = some o → o = owner a.client
  | _ => True

variable {owner : ℕ → O} {s s' : SecuredDb K O C} {q r : ℕ} {t : ClientTxn K O C}

set_option linter.unusedSectionVars false

@[simp] theorem put_txns_self : (s.put r t).txns r = some t := Function.update_self ..

theorem put_txns_of_ne (h : q ≠ r) : (s.put r t).txns q = s.txns q := Function.update_of_ne h ..

@[simp] theorem put_holder_self : (s.put r t).holder t.connection = some r :=
  Function.update_self ..

theorem put_holder_of_ne {c : ℕ} (h : c ≠ t.connection) : (s.put r t).holder c = s.holder c :=
  Function.update_of_ne h ..

@[simp] theorem finish_txns_self : (s.finish r t).txns r = none := Function.update_self ..

theorem finish_txns_of_ne (h : q ≠ r) : (s.finish r t).txns q = s.txns q :=
  Function.update_of_ne h ..

theorem finish_holder_of_ne {c : ℕ} (h : c ≠ t.connection) :
    (s.finish r t).holder c = s.holder c :=
  Function.update_of_ne h ..

/-- A transaction under the setting of its own client. -/
structure TxnInv (owner : ℕ → O) (s : SecuredDb K O C) (r : ℕ) (t : ClientTxn K O C) : Prop where
  /-- nothing is kept beyond the transaction -/
  kept : t.kept = none
  /-- the owner that is set is its own -/
  setting : ∀ o, t.setting = some o → o = owner r
  /-- it writes rows of its own owner -/
  writes : ∀ ch ∈ t.pending, ∀ o, ch.owner = some o → o = owner r
  /-- it has locked the rows that it changes -/
  locked : ∀ ch ∈ t.pending, s.locks ch.id = some r

/-- What holds of the server if every call is scoped. -/
structure Inv (owner : ℕ → O) (s : SecuredDb K O C) : Prop where
  /-- connections are given back with a blank setting -/
  settings : ∀ c, s.settings c = none
  /-- keys name one row each -/
  ids : RowChange.UniqueIds s.rows
  /-- a transaction has its connection to itself -/
  holder : ∀ r t, s.txns r = some t → s.holder t.connection = some r
  /-- transactions are under the setting of their clients -/
  txns : ∀ r t, s.txns r = some t → TxnInv owner s r t
  /-- locked rows belong to the client's owner -/
  locks : ∀ k r, s.locks k = some r → ∀ row ∈ s.rows, row.id = k → row.owner = owner r

theorem Inv.start {rows : List (OwnedRow K O C)} (h : RowChange.UniqueIds rows) :
    Inv owner ({ rows } : SecuredDb K O C) where
  settings _ := rfl
  ids := h
  holder _ _ ht := by cases ht
  txns _ _ ht := by cases ht
  locks _ _ hl := by cases hl

theorem Inv.answer (h : Inv owner s) (r : ℕ) (a : SqlAnswer K O C) : Inv owner (s.answer r a) :=
  ⟨h.settings, h.ids, h.holder, fun q t ht => ⟨(h.txns q t ht).kept, (h.txns q t ht).setting,
    (h.txns q t ht).writes, (h.txns q t ht).locked⟩, h.locks⟩

/-- A transaction goes on, on a connection that nobody else has. -/
theorem Inv.put (h : Inv owner s) (ht : TxnInv owner s r t)
    (hfree : s.holder t.connection = none ∨ s.holder t.connection = some r) :
    Inv owner (s.put r t) where
  settings := h.settings
  ids := h.ids
  holder q u hu := by
    rcases eq_or_ne q r with rfl | hne
    · obtain rfl : t = u := Option.some.inj (put_txns_self.symm.trans hu)
      exact put_holder_self
    · have hq := h.holder q u ((put_txns_of_ne hne).symm.trans hu)
      have hconn : u.connection ≠ t.connection := by
        intro heq
        rw [heq] at hq
        rcases hfree with hnone | hsome
        · exact absurd (hnone.symm.trans hq) (by simp)
        · exact hne (Option.some.inj (hq.symm.trans hsome))
      exact (put_holder_of_ne hconn).trans hq
  txns q u hu := by
    rcases eq_or_ne q r with rfl | hne
    · obtain rfl : t = u := Option.some.inj (put_txns_self.symm.trans hu)
      exact ⟨ht.kept, ht.setting, ht.writes, ht.locked⟩
    · have hq := h.txns q u ((put_txns_of_ne hne).symm.trans hu)
      exact ⟨hq.kept, hq.setting, hq.writes, hq.locked⟩
  locks := h.locks

/-- A client locks rows of its own owner that nobody else has locked. -/
theorem Inv.lock (h : Inv owner s) {ids : List K}
    (hfree : ∀ k ∈ ids, s.locks k = none ∨ s.locks k = some r)
    (hown : ∀ k ∈ ids, ∀ row ∈ s.rows, row.id = k → row.owner = owner r) :
    Inv owner (s.lock r ids) where
  settings := h.settings
  ids := h.ids
  holder := h.holder
  txns q u hu := by
    have hq := h.txns q u hu
    refine ⟨hq.kept, hq.setting, hq.writes, fun ch hch => ?_⟩
    change (if ch.id ∈ ids then some r else s.locks ch.id) = some q
    split
    next hmem =>
      rcases hfree _ hmem with hnone | hsome
      · exact absurd (hnone.symm.trans (hq.locked ch hch)) (by simp)
      · exact hsome.symm.trans (hq.locked ch hch)
    next => exact hq.locked ch hch
  locks k q hk := by
    change (if k ∈ ids then some r else s.locks k) = some q at hk
    split at hk
    next hmem =>
      obtain rfl := Option.some.inj hk
      exact hown k hmem
    next => exact h.locks k q hk

/-- A transaction ends. -/
theorem Inv.finish (h : Inv owner s) (ht : s.txns r = some t) : Inv owner (s.finish r t) where
  settings := h.settings
  ids := h.ids
  holder q u hu := by
    rcases eq_or_ne q r with rfl | hne
    · exact absurd (finish_txns_self.symm.trans hu) (by simp)
    · have hq := h.holder q u ((finish_txns_of_ne hne).symm.trans hu)
      have hconn : u.connection ≠ t.connection := by
        intro heq
        rw [heq, h.holder r t ht] at hq
        exact hne (Option.some.inj hq).symm
      exact (finish_holder_of_ne hconn).trans hq
  txns q u hu := by
    rcases eq_or_ne q r with rfl | hne
    · exact absurd (finish_txns_self.symm.trans hu) (by simp)
    · have hq := h.txns q u ((finish_txns_of_ne hne).symm.trans hu)
      refine ⟨hq.kept, hq.setting, hq.writes, fun ch hch => ?_⟩
      have hlock := hq.locked ch hch
      change (if s.locks ch.id = some r then none else s.locks ch.id) = some q
      rw [if_neg, hlock]
      rw [hlock]
      exact fun heq => hne (Option.some.inj heq)
  locks k q hk := by
    change (if s.locks k = some r then none else s.locks k) = some q at hk
    split at hk
    · exact absurd hk (by simp)
    · exact h.locks k q hk

/-- A transaction is committed. -/
theorem Inv.commit (h : Inv owner s) (ht : s.txns r = some t) :
    Inv owner ((s.apply t).finish r t) := by
  have htxn := h.txns r t ht
  have hfinish := h.finish ht
  refine ⟨fun c => ?_, h.ids.overlay _, hfinish.holder, fun q u hu => ?_,
    fun k q hk row hrow hid => ?_⟩
  · change Function.update s.settings t.connection t.kept c = none
    rcases eq_or_ne c t.connection with rfl | hne
    · exact (Function.update_self ..).trans htxn.kept
    · exact (Function.update_of_ne hne ..).trans (h.settings c)
  · have hq := hfinish.txns q u hu
    exact ⟨hq.kept, hq.setting, hq.writes, hq.locked⟩
  · rcases RowChange.of_mem_overlay hrow with hrow | hput
    · exact hfinish.locks k q hk row hrow hid
    · -- a row that this transaction has written is locked by it, and its locks are gone
      exfalso
      change (if s.locks k = some r then none else s.locks k) = some q at hk
      rw [if_pos (hid ▸ htxn.locked _ hput)] at hk
      cases hk

/-- The transaction of a client goes on, or a new one begins on a connection that is free. -/
theorem begin_eq_some {c : ℕ} : s.begin r c = some t ↔ s.txns r = some t ∨
    s.txns r = none ∧ s.holder c = none ∧ t = ⟨c, s.settings c, s.settings c, [], false⟩ := by
  unfold SecuredDb.begin
  cases htxn : s.txns r with
  | some u => simp
  | none =>
    cases hholder : s.holder c with
    | none => simp [eq_comm]
    | some q => simp

/-- The transaction that a statement runs in. -/
theorem Inv.begin (h : Inv owner s) {c : ℕ} (ht : s.begin r c = some t) :
    TxnInv owner s r t ∧ (s.holder t.connection = none ∨ s.holder t.connection = some r) := by
  rcases begin_eq_some.mp ht with htxn | ⟨-, hfree, rfl⟩
  · exact ⟨h.txns r t htxn, .inr (h.holder r t htxn)⟩
  · refine ⟨⟨h.settings c, fun o ho => ?_, fun _ hch => absurd hch List.not_mem_nil,
      fun _ hch => absurd hch List.not_mem_nil⟩, .inl hfree⟩
    exact absurd ((h.settings c).symm.trans ho) (by simp)

/-- What a transaction sees belongs to its client's owner. -/
theorem TxnInv.owner_of_visible (ht : TxnInv owner s r t) {row : OwnedRow K O C}
    (hrow : row ∈ s.visible t) : row.owner = owner r :=
  ht.setting _ (of_decide_eq_true (List.mem_filter.mp hrow).2)

theorem mem_changes {f : OwnedRow K O C → Option (Option (O × C))} {ch : RowChange K O C}
    (hch : ch ∈ (s.visible t).filterMap (changeOf f)) : ∃ row ∈ s.visible t, row.id = ch.id := by
  obtain ⟨row, hrow, hch⟩ := List.mem_filterMap.mp hch
  refine ⟨row, hrow, ?_⟩
  obtain ⟨new, -, rfl⟩ := Option.map_eq_some_iff.mp hch
  rcases new with _ | ⟨o, c⟩ <;> rfl

/-- What the policy lets a transaction write belongs to its client's owner. -/
theorem TxnInv.owner_of_checks (ht : TxnInv owner s r t) {changes : List (RowChange K O C)}
    (hchecks : checks t changes = true) {ch : RowChange K O C} (hch : ch ∈ changes) {o : O}
    (ho : ch.owner = some o) : o = owner r := by
  have hall := List.all_eq_true.mp hchecks ch hch
  rw [ho] at hall
  exact ht.setting o (of_decide_eq_true hall)

/-- Changes of rows that nobody else has locked join a transaction. -/
theorem Inv.change (h : Inv owner s) (ht : TxnInv owner s r t)
    (hfree : s.holder t.connection = none ∨ s.holder t.connection = some r)
    {changes : List (RowChange K O C)} (hchecks : checks t changes = true)
    (hlocks : ∀ ch ∈ changes, s.locks ch.id = none ∨ s.locks ch.id = some r)
    (hown : ∀ ch ∈ changes, ∀ row ∈ s.rows, row.id = ch.id → row.owner = owner r) :
    Inv owner ((s.lock r (changes.map RowChange.id)).put r
      { t with pending := t.pending ++ changes }) := by
  have hlock : Inv owner (s.lock r (changes.map RowChange.id)) := by
    refine h.lock (fun k hk => ?_) fun k hk => ?_
    · obtain ⟨ch, hch, rfl⟩ := List.mem_map.mp hk
      exact hlocks ch hch
    · obtain ⟨ch, hch, rfl⟩ := List.mem_map.mp hk
      exact hown ch hch
  refine hlock.put ⟨ht.kept, ht.setting, fun ch hch o ho => ?_, fun ch hch => ?_⟩ hfree
  · rcases List.mem_append.mp hch with hch | hch
    · exact ht.writes ch hch o ho
    · exact ht.owner_of_checks hchecks hch ho
  · change (if ch.id ∈ changes.map RowChange.id then some r else s.locks ch.id) = some r
    split
    · rfl
    next hnot =>
      rcases List.mem_append.mp hch with hch | hch
      · exact ht.locked ch hch
      · exact absurd (List.mem_map_of_mem hch) hnot

theorem not_inUse {k : K} (h : ¬ s.inUse k = true) :
    (∀ row ∈ s.rows, row.id ≠ k) ∧ s.locks k = none := by
  simpa [inUse] using h

theorem not_locked {changes : List (RowChange K O C)}
    (h : ¬ (changes.any fun ch => (s.locks ch.id).any (· ≠ r)) = true) :
    ∀ ch ∈ changes, s.locks ch.id = none ∨ s.locks ch.id = some r := by
  intro ch hch
  have hnot : ¬ (s.locks ch.id).any (· ≠ r) = true := fun hany =>
    h (List.any_eq_true.mpr ⟨ch, hch, hany⟩)
  cases hl : s.locks ch.id with
  | none => exact .inl rfl
  | some q =>
    rw [hl] at hnot
    exact .inr (congrArg some (by simpa using hnot))

/-- What a statement does, and under which conditions: it goes on in a transaction, or it changes
rows that are nobody else's. -/
inductive Executes (s : SecuredDb K O C) (r : ℕ) (t : ClientTxn K O C) :
    SqlCall K O C → SecuredDb K O C → Prop where
  /-- a setting -/
  | setConfig (value : Option O) (isLocal : Bool) :
    Executes s r t (.setConfig value isLocal) ((s.put r { t with
      setting := value
      kept := if isLocal then t.kept else value }).answer r .done)
  /-- a query -/
  | select (p : OwnedRow K O C → Bool) :
    Executes s r t (.select p) ((s.put r t).answer r (.rows ((s.visible t).filter p)))
  /-- rows are written -/
  | writes (call : SqlCall K O C) (changes : List (RowChange K O C))
    (hcall : (∃ row, call = .insert row ∧ changes = [.put row]) ∨
      ∃ f, call = .change f ∧ changes = (s.visible t).filterMap (changeOf f))
    (hchecks : checks t changes = true)
    (hlocks : ∀ ch ∈ changes, s.locks ch.id = none ∨ s.locks ch.id = some r)
    (hrows : ∀ ch ∈ changes, (∃ row ∈ s.visible t, row.id = ch.id) ∨
      ∀ row ∈ s.rows, row.id ≠ ch.id) :
    Executes s r t call (((s.lock r (changes.map RowChange.id)).put r
      { t with pending := t.pending ++ changes }).answer r .done)
  /-- the policy refuses -/
  | refused (call : SqlCall K O C) (hcall : ∀ value isLocal, call ≠ .setConfig value isLocal) :
    Executes s r t call ((s.put r { t with failed := true }).answer r .refused)

theorem executes_of_execute {call : SqlCall K O C} (h : s.execute r t call = some s') :
    Executes s r t call s' := by
  cases call with
  | setConfig value isLocal =>
    obtain rfl := Option.some.inj h
    exact .setConfig value isLocal
  | select p =>
    obtain rfl := Option.some.inj h
    exact .select p
  | insert row =>
    simp only [execute] at h
    split at h
    next => cases h
    next hfresh =>
      obtain ⟨hrows, hlock⟩ := not_inUse hfresh
      split at h
      next hchecks =>
        obtain rfl := Option.some.inj h
        refine .writes _ [.put row] (.inl ⟨row, rfl, rfl⟩) hchecks (fun ch hch => ?_)
          fun ch hch => ?_
        all_goals obtain rfl := List.mem_singleton.mp hch
        · exact .inl hlock
        · exact .inr hrows
      next =>
        obtain rfl := Option.some.inj h
        exact .refused _ (by simp)
  | change f =>
    simp only [execute] at h
    split at h
    next => cases h
    next hfree =>
      split at h
      next hchecks =>
        obtain rfl := Option.some.inj h
        exact .writes _ _ (.inr ⟨f, rfl, rfl⟩) hchecks (not_locked hfree)
          fun ch hch => .inl (mem_changes hch)
      next =>
        obtain rfl := Option.some.inj h
        exact .refused _ (by simp)
  | commit => cases h
  | rollback => cases h

/-- What a step of a client can be. -/
inductive Steps (s : SecuredDb K O C) (r c : ℕ) : SqlCall K O C → SecuredDb K O C → Prop where
  /-- there is no transaction to end -/
  | idle (call : SqlCall K O C) : call = .commit ∨ call = .rollback → s.txns r = none →
    Steps s r c call (s.answer r .done)
  /-- a transaction is committed -/
  | commits {t : ClientTxn K O C} : s.txns r = some t → t.failed = false →
    Steps s r c .commit (((s.apply t).finish r t).answer r .done)
  /-- a transaction is given up -/
  | drops {t : ClientTxn K O C} (call : SqlCall K O C) (a : SqlAnswer K O C) :
    call = .commit ∨ call = .rollback → s.txns r = some t → a = .done ∨ a = .refused →
    Steps s r c call ((s.finish r t).answer r a)
  /-- a statement after one that has raised -/
  | stuck {t : ClientTxn K O C} (call : SqlCall K O C) : s.begin r c = some t → t.failed = true →
    Steps s r c call ((s.put r t).answer r .refused)
  /-- a statement -/
  | executes {t : ClientTxn K O C} {call : SqlCall K O C} {s' : SecuredDb K O C} :
    s.begin r c = some t → t.failed = false → Executes s r t call s' →
    Steps s r c call s'

/-- A call is a statement or ends a transaction. -/
theorem step_cases (r c : ℕ) (call : SqlCall K O C) :
    (∀ s : SecuredDb K O C, step s ⟨r, c, call⟩ = (s.begin r c).bind fun t =>
      if t.failed then some ((s.put r t).answer r .refused) else s.execute r t call) ∨
    call = .commit ∨ call = .rollback := by
  cases call with
  | commit => exact .inr (.inl rfl)
  | rollback => exact .inr (.inr rfl)
  | _ => exact .inl fun _ => rfl

/-- **Inversion** of a step. -/
theorem steps_of_step {a : ClientCall K O C} (h : step s a = some s') :
    Steps s a.client a.connection a.call s' := by
  obtain ⟨r, c, call⟩ := a
  rcases step_cases r c call with hstatement | rfl | rfl
  · rw [hstatement] at h
    obtain ⟨t, ht, h⟩ := Option.bind_eq_some_iff.mp h
    cases hfailed : t.failed with
    | true =>
      rw [hfailed, if_pos rfl] at h
      obtain rfl := Option.some.inj h
      exact .stuck call ht hfailed
    | false =>
      rw [hfailed, if_neg Bool.false_ne_true] at h
      exact .executes ht hfailed (executes_of_execute h)
  · cases ht : s.txns r with
    | none =>
      simp only [step, ht] at h
      obtain rfl := Option.some.inj h
      exact .idle _ (.inl rfl) ht
    | some t =>
      simp only [step, ht] at h
      split at h
      next hfailed =>
        obtain rfl := Option.some.inj h
        exact .drops _ _ (.inl rfl) ht (.inr rfl)
      next hfailed =>
        obtain rfl := Option.some.inj h
        exact .commits ht (Bool.eq_false_iff.mpr hfailed)
  · cases ht : s.txns r with
    | none =>
      simp only [step, ht] at h
      obtain rfl := Option.some.inj h
      exact .idle _ (.inr rfl) ht
    | some t =>
      simp only [step, ht] at h
      obtain rfl := Option.some.inj h
      exact .drops _ _ (.inr rfl) ht (.inl rfl)

/-- Rows that a transaction changes belong to its client's owner. -/
theorem Inv.owner_of_changed (h : Inv owner s) (ht : TxnInv owner s r t) {k : K}
    (hk : (∃ row ∈ s.visible t, row.id = k) ∨ ∀ row ∈ s.rows, row.id ≠ k) :
    ∀ row ∈ s.rows, row.id = k → row.owner = owner r := by
  intro row hrow hid
  rcases hk with ⟨seen, hseen, rfl⟩ | hnone
  · rcases RowChange.of_mem_overlay (List.mem_filter.mp hseen).1 with hold | hput
    · rw [h.ids row hrow seen hold hid]
      exact ht.owner_of_visible hseen
    · exact h.locks _ r (ht.locked _ hput) row hrow hid
  · exact absurd hid (hnone row hrow)

/-- **A step keeps the invariant.** -/
theorem Inv.step (h : Inv owner s) {a : ClientCall K O C} (ha : Scoped owner a)
    (hs : SecuredDb.step s a = some s') : Inv owner s' := by
  obtain ⟨r, c, call⟩ := a
  have hsteps : Steps s r c call s' := steps_of_step hs
  cases hsteps with
  | idle _ _ _ => exact h.answer _ _
  | commits ht _ => exact (h.commit ht).answer _ _
  | drops _ _ _ ht _ => exact (h.finish ht).answer _ _
  | stuck _ hbegin _ =>
    obtain ⟨ht, hfree⟩ := h.begin hbegin
    exact (h.put ht hfree).answer _ _
  | @executes t _ _ hbegin _ hexec =>
    obtain ⟨ht, hfree⟩ := h.begin hbegin
    cases hexec with
    | setConfig value isLocal =>
      obtain ⟨rfl, hown⟩ := ha
      have hset : TxnInv owner s r { t with setting := value } :=
        ⟨ht.kept, hown, ht.writes, ht.locked⟩
      exact (h.put hset hfree).answer _ _
    | select p => exact (h.put ht hfree).answer _ _
    | writes _ changes _ hchecks hlocks hrows =>
      exact (h.change ht hfree hchecks hlocks fun ch hch =>
        h.owner_of_changed ht (hrows ch hch)).answer _ _
    | refused _ _ =>
      have hfailed : TxnInv owner s r { t with failed := true } :=
        ⟨ht.kept, ht.setting, ht.writes, ht.locked⟩
      exact (h.put hfailed hfree).answer _ _

/-! ### What one client is told -/

theorem answer_answers_self (a : SqlAnswer K O C) : (s.answer r a).answers r = s.answers r ++ [a] :=
  Function.update_self ..

theorem answer_answers_of_ne (h : q ≠ r) (a : SqlAnswer K O C) :
    (s.answer r a).answers q = s.answers q :=
  Function.update_of_ne h ..

/-- A step of another client leaves a client's transaction and what it has been told. -/
theorem step_of_ne {a : ClientCall K O C} (hs : SecuredDb.step s a = some s')
    (hne : q ≠ a.client) : s'.txns q = s.txns q ∧ s'.answers q = s.answers q := by
  obtain ⟨r, c, call⟩ := a
  have hsteps : Steps s r c call s' := steps_of_step hs
  change q ≠ r at hne
  cases hsteps with
  | idle _ _ _ => exact ⟨rfl, answer_answers_of_ne hne _⟩
  | @commits t _ _ =>
    exact ⟨finish_txns_of_ne (s := s.apply t) (t := t) hne, answer_answers_of_ne hne _⟩
  | @drops t _ _ _ _ _ => exact ⟨finish_txns_of_ne (t := t) hne, answer_answers_of_ne hne _⟩
  | stuck _ _ _ => exact ⟨put_txns_of_ne hne, answer_answers_of_ne hne _⟩
  | executes _ _ hexec =>
    cases hexec with
    | setConfig value isLocal => exact ⟨put_txns_of_ne hne, answer_answers_of_ne hne _⟩
    | select p => exact ⟨put_txns_of_ne hne, answer_answers_of_ne hne _⟩
    | writes _ changes _ _ _ _ => exact ⟨put_txns_of_ne hne, answer_answers_of_ne hne _⟩
    | refused _ _ => exact ⟨put_txns_of_ne hne, answer_answers_of_ne hne _⟩

/-- Steps of other clients leave a client's transaction and what it has been told. -/
theorem run_of_ne {l : List (ClientCall K O C)} (hl : ∀ a ∈ l, q ≠ a.client)
    (hrun : runSteps SecuredDb.step s l = some s') :
    s'.txns q = s.txns q ∧ s'.answers q = s.answers q :=
  runSteps_invariant (I := fun t => t.txns q = s.txns q ∧ t.answers q = s.answers q)
    (fun a ha _ _ hi hs => by
      obtain ⟨htxns, hanswers⟩ := step_of_ne hs (hl a ha)
      exact ⟨htxns.trans hi.1, hanswers.trans hi.2⟩)
    ⟨rfl, rfl⟩ hrun

/-- A client without a transaction, or with one in which no owner is set and nothing is written. -/
def Unbound (s : SecuredDb K O C) (r : ℕ) : Prop :=
  ∀ t, s.txns r = some t → t.setting = none ∧ t.pending = []

theorem Unbound.of_none (h : s.txns r = none) : Unbound s r :=
  fun _ ht => absurd (h.symm.trans ht) (by simp)

/-- Without an owner that is set nothing is seen. -/
theorem visible_eq_nil (h : t.setting = none) : s.visible t = [] := by
  simp [visible, h]

/-- What a client is told for a call while no owner is set: no rows, and no row is inserted. -/
structure ToldNothing (call : SqlCall K O C) (told : SqlAnswer K O C) : Prop where
  /-- a query has no rows -/
  rows : ∀ l, told = .rows l → l = []
  /-- an insertion raises -/
  insert : ∀ row, call = .insert row → told = .refused

theorem ToldNothing.done {call : SqlCall K O C} (h : ∀ row, call ≠ .insert row) :
    ToldNothing call .done where
  rows _ hl := by cases hl
  insert row hrow := absurd hrow (h row)

theorem ToldNothing.refused {call : SqlCall K O C} : ToldNothing call .refused where
  rows _ hl := by cases hl
  insert _ _ := rfl

/-- **Nothing is seen or written** while no owner is set. -/
theorem Unbound.step (h : Unbound s r) (hinv : Inv owner s) {c : ℕ} {call : SqlCall K O C}
    (hcall : ∀ value isLocal, call = .setConfig value isLocal → value = none)
    (hs : SecuredDb.step s ⟨r, c, call⟩ = some s') :
    Unbound s' r ∧ s'.rows = s.rows ∧
      ∃ told, s'.answers r = s.answers r ++ [told] ∧ ToldNothing call told := by
  have hsteps : Steps s r c call s' := steps_of_step hs
  have hend : call = .commit ∨ call = .rollback → ToldNothing call .done := by
    rintro (rfl | rfl) <;> exact .done (by simp)
  have hbegin : ∀ {t : ClientTxn K O C}, s.begin r c = some t →
      t.setting = none ∧ t.pending = [] := by
    intro t ht
    rcases begin_eq_some.mp ht with htxn | ⟨-, -, rfl⟩
    · exact h t htxn
    · exact ⟨hinv.settings c, rfl⟩
  have hput : ∀ {u : SecuredDb K O C} {t : ClientTxn K O C} {told : SqlAnswer K O C},
      t.setting = none ∧ t.pending = [] → Unbound ((u.put r t).answer r told) r := by
    intro u t told ht v hv
    obtain rfl : t = v := Option.some.inj (put_txns_self.symm.trans hv)
    exact ht
  cases hsteps with
  | idle _ hcommit hnone =>
    exact ⟨Unbound.of_none (s := s.answer r .done) hnone, rfl, _, answer_answers_self _,
      hend hcommit⟩
  | @commits t ht _ =>
    refine ⟨Unbound.of_none (finish_txns_self (s := s.apply t) (t := t)), ?_, _,
      answer_answers_self _, hend (.inl rfl)⟩
    change RowChange.overlay t.pending s.rows = s.rows
    rw [(h t ht).2]
    rfl
  | @drops t _ a hcommit ht ha =>
    refine ⟨Unbound.of_none (finish_txns_self (s := s) (t := t)), rfl, a, answer_answers_self _, ?_⟩
    rcases ha with rfl | rfl
    · exact hend hcommit
    · exact .refused
  | stuck _ ht _ => exact ⟨hput (hbegin ht), rfl, _, answer_answers_self _, .refused⟩
  | @executes t _ _ ht _ hexec =>
    obtain ⟨hsetting, hpending⟩ := hbegin ht
    cases hexec with
    | setConfig value isLocal =>
      obtain rfl := hcall value isLocal rfl
      exact ⟨hput ⟨rfl, hpending⟩, rfl, _, answer_answers_self _, .done (by simp)⟩
    | select p =>
      refine ⟨hput ⟨hsetting, hpending⟩, rfl, _, answer_answers_self _, fun l hl => ?_, by simp⟩
      rw [visible_eq_nil hsetting] at hl
      exact (SqlAnswer.rows.inj hl).symm
    | writes _ changes hwhich hchecks _ _ =>
      rcases hwhich with ⟨row, rfl, rfl⟩ | ⟨f, rfl, rfl⟩
      · -- the policy refuses every row
        simp [checks, RowChange.owner, hsetting] at hchecks
      · rw [visible_eq_nil hsetting] at *
        refine ⟨hput ⟨hsetting, ?_⟩, rfl, _, answer_answers_self _, .done (by simp)⟩
        rw [hpending]
        rfl
    | refused _ _ =>
      exact ⟨hput ⟨hsetting, hpending⟩, rfl, _, answer_answers_self _, .refused⟩

/-- Every row that a client has been told belongs to its owner. -/
def AnswersOwn (owner : ℕ → O) (s : SecuredDb K O C) : Prop :=
  ∀ r rows, .rows rows ∈ s.answers r → ∀ row ∈ rows, row.owner = owner r

theorem AnswersOwn.answer (h : AnswersOwn owner s) {a : SqlAnswer K O C}
    (ha : ∀ rows, a = .rows rows → ∀ row ∈ rows, row.owner = owner r) :
    AnswersOwn owner (s.answer r a) := by
  intro q rows hrows
  rcases eq_or_ne q r with rfl | hne
  · rw [answer_answers_self] at hrows
    rcases List.mem_append.mp hrows with hold | hnew
    · exact h q rows hold
    · exact ha rows (List.mem_singleton.mp hnew).symm
  · rw [answer_answers_of_ne hne] at hrows
    exact h q rows hrows

/-- A step tells a client rows of its own owner only. -/
theorem AnswersOwn.step (h : AnswersOwn owner s) (hinv : Inv owner s) {a : ClientCall K O C}
    (hs : SecuredDb.step s a = some s') : AnswersOwn owner s' := by
  obtain ⟨r, c, call⟩ := a
  have hsteps : Steps s r c call s' := steps_of_step hs
  have hplain : ∀ {u : SecuredDb K O C} {told : SqlAnswer K O C}, u.answers = s.answers →
      (told = .done ∨ told = .refused) → AnswersOwn owner (u.answer r told) := by
    intro u told hu htold
    have hown : AnswersOwn owner u := fun q rows hrows => h q rows (hu ▸ hrows)
    refine hown.answer fun rows heq => ?_
    rcases htold with rfl | rfl <;> cases heq
  cases hsteps with
  | idle _ _ _ => exact hplain rfl (.inl rfl)
  | commits _ _ => exact hplain rfl (.inl rfl)
  | drops _ _ _ _ htold => exact hplain rfl htold
  | stuck _ _ _ => exact hplain rfl (.inr rfl)
  | @executes t _ _ hbegin _ hexec =>
    cases hexec with
    | setConfig value isLocal => exact hplain rfl (.inl rfl)
    | select p =>
      refine AnswersOwn.answer (s := s.put r t) h fun rows heq row hrow => ?_
      obtain rfl := SqlAnswer.rows.inj heq
      exact (hinv.begin hbegin).1.owner_of_visible (List.mem_filter.mp hrow).1
    | writes _ changes _ _ _ _ => exact hplain rfl (.inl rfl)
    | refused _ _ => exact hplain rfl (.inr rfl)

/-! ### What one owner sees -/

/-- The part of the server that belongs to an owner: its rows, and its clients with their
connections, locks, transactions and answers. -/
def view (owner : ℕ → O) (A : O) (s : SecuredDb K O C) : SecuredDb K O C where
  rows := RowChange.ofOwner A s.rows
  settings := s.settings
  holder c := (s.holder c).filter fun r => owner r = A
  locks k := (s.locks k).filter fun r => owner r = A
  txns r := if owner r = A then s.txns r else none
  answers r := if owner r = A then s.answers r else []

variable {A : O}

@[ext] theorem ext_of {s s' : SecuredDb K O C} (hrows : s.rows = s'.rows)
    (hsettings : s.settings = s'.settings) (hholder : s.holder = s'.holder)
    (hlocks : s.locks = s'.locks) (htxns : s.txns = s'.txns) (hanswers : s.answers = s'.answers) :
    s = s' := by
  cases s
  cases s'
  congr

/-- A value changed at a place of one's own is changed in one's own part. -/
theorem update_view {β : Type} {f : ℕ → β} {d : β} (hr : owner r = A) (b : β) :
    (fun q => if owner q = A then Function.update f r b q else d) =
      Function.update (fun q => if owner q = A then f q else d) r b := by
  funext q
  rcases eq_or_ne q r with rfl | hne
  · rw [if_pos hr, Function.update_self, Function.update_self]
  · rw [Function.update_of_ne hne, Function.update_of_ne hne]

/-- A value changed at a place of another's is not seen. -/
theorem update_view_other {β : Type} {f : ℕ → β} {d : β} (hr : owner r ≠ A) (b : β) :
    (fun q => if owner q = A then Function.update f r b q else d) =
      fun q => if owner q = A then f q else d := by
  funext q
  rcases eq_or_ne q r with rfl | hne
  · rw [if_neg hr, if_neg hr]
  · rw [Function.update_of_ne hne]

theorem view_answer (hr : owner r = A) (a : SqlAnswer K O C) :
    view owner A (s.answer r a) = (view owner A s).answer r a := by
  refine ext_of rfl rfl rfl rfl rfl ?_
  refine (update_view hr _).trans ?_
  have hown : (view owner A s).answers r = s.answers r := if_pos hr
  rw [answer, hown]
  rfl

theorem view_answer_other (hr : owner r ≠ A) (a : SqlAnswer K O C) :
    view owner A (s.answer r a) = view owner A s :=
  ext_of rfl rfl rfl rfl rfl (update_view_other hr _)

theorem view_put (hr : owner r = A) : view owner A (s.put r t) = (view owner A s).put r t := by
  refine ext_of rfl rfl (funext fun c => ?_) rfl (update_view hr _) rfl
  change (Function.update s.holder t.connection (some r) c).filter _ =
    Function.update (fun c => (s.holder c).filter fun r => owner r = A) t.connection (some r) c
  rcases eq_or_ne c t.connection with rfl | hne
  · rw [Function.update_self, Function.update_self, Option.filter_some, if_pos (by simpa using hr)]
  · rw [Function.update_of_ne hne, Function.update_of_ne hne]

theorem view_put_other (hr : owner r ≠ A)
    (hfree : s.holder t.connection = none ∨ s.holder t.connection = some r) :
    view owner A (s.put r t) = view owner A s := by
  refine ext_of rfl rfl (funext fun c => ?_) rfl (update_view_other hr _) rfl
  change (Function.update s.holder t.connection (some r) c).filter _ = (s.holder c).filter _
  rcases eq_or_ne c t.connection with rfl | hne
  · rw [Function.update_self, Option.filter_some, if_neg (by simpa using hr)]
    rcases hfree with hnone | hsome
    · rw [hnone]
      rfl
    · rw [hsome, Option.filter_some, if_neg (by simpa using hr)]
  · rw [Function.update_of_ne hne]

theorem view_lock (hr : owner r = A) (ids : List K) :
    view owner A (s.lock r ids) = (view owner A s).lock r ids := by
  refine ext_of rfl rfl rfl (funext fun k => ?_) rfl rfl
  change (if k ∈ ids then some r else s.locks k).filter _ =
    if k ∈ ids then some r else (s.locks k).filter _
  split
  · rw [Option.filter_some, if_pos (by simpa using hr)]
  · rfl

theorem view_lock_other (hr : owner r ≠ A) {ids : List K}
    (hfree : ∀ k ∈ ids, s.locks k = none ∨ s.locks k = some r) :
    view owner A (s.lock r ids) = view owner A s := by
  refine ext_of rfl rfl rfl (funext fun k => ?_) rfl rfl
  change (if k ∈ ids then some r else s.locks k).filter _ = (s.locks k).filter _
  split
  next hk =>
    rcases hfree k hk with hnone | hsome
    · rw [hnone, Option.filter_some, if_neg (by simpa using hr)]
      rfl
    · rw [hsome]
  next => rfl

theorem view_finish (hr : owner r = A) :
    view owner A (s.finish r t) = (view owner A s).finish r t := by
  refine ext_of rfl rfl (funext fun c => ?_) (funext fun k => ?_) (update_view hr _) rfl
  · change (Function.update s.holder t.connection none c).filter _ =
      Function.update (fun c => (s.holder c).filter fun r => owner r = A) t.connection none c
    rcases eq_or_ne c t.connection with rfl | hne
    · rw [Function.update_self, Function.update_self]
      rfl
    · rw [Function.update_of_ne hne, Function.update_of_ne hne]
  · change (if s.locks k = some r then none else s.locks k).filter _ =
      if (s.locks k).filter _ = some r then none else (s.locks k).filter _
    cases hk : s.locks k with
    | none => rfl
    | some q =>
      rcases eq_or_ne q r with rfl | hne
      · have hself : (some q).filter (fun r => owner r = A) = some q := by
          rw [Option.filter_some, if_pos (by simpa using hr)]
        rw [if_pos rfl, hself, if_pos rfl]
        rfl
      · rw [if_neg (by simpa using hne), if_neg]
        rw [Option.filter_some]
        split
        · simpa using hne
        · simp

theorem view_finish_other (h : Inv owner s) (hr : owner r ≠ A) (ht : s.txns r = some t) :
    view owner A (s.finish r t) = view owner A s := by
  refine ext_of rfl rfl (funext fun c => ?_) (funext fun k => ?_) (update_view_other hr _) rfl
  · change (Function.update s.holder t.connection none c).filter _ = (s.holder c).filter _
    rcases eq_or_ne c t.connection with rfl | hne
    · rw [Function.update_self, h.holder r t ht, Option.filter_some, if_neg (by simpa using hr)]
      rfl
    · rw [Function.update_of_ne hne]
  · change (if s.locks k = some r then none else s.locks k).filter _ = (s.locks k).filter _
    split
    next hk =>
      rw [hk, Option.filter_some, if_neg (by simpa using hr)]
      rfl
    next => rfl

theorem view_apply (ht : TxnInv owner s r t) (hr : owner r = A) :
    view owner A (s.apply t) = (view owner A s).apply t := by
  refine ext_of ?_ rfl rfl rfl rfl rfl
  exact RowChange.ofOwner_overlay_own (fun ch hch o ho => (ht.writes ch hch o ho).trans hr) _

theorem view_apply_other (h : Inv owner s) (ht : TxnInv owner s r t) (hr : owner r ≠ A) :
    view owner A (s.apply t) = view owner A s := by
  refine ext_of ?_ (funext fun c => ?_) rfl rfl rfl rfl
  · refine RowChange.ofOwner_overlay_other
      (fun ch hch o ho => (ht.writes ch hch o ho).symm ▸ hr) fun ch hch row hrow hid => ?_
    rw [h.locks _ r (ht.locked ch hch) row hrow hid]
    exact hr
  · change Function.update s.settings t.connection t.kept c = s.settings c
    rcases eq_or_ne c t.connection with rfl | hne
    · rw [Function.update_self, ht.kept, h.settings]
    · rw [Function.update_of_ne hne]

/-- The owner's clients see the same rows in the whole and in their own part. -/
theorem visible_view (ht : TxnInv owner s r t) (hr : owner r = A) :
    (view owner A s).visible t = s.visible t := by
  cases hsetting : t.setting with
  | none => simp [visible, hsetting]
  | some o =>
    obtain rfl : o = A := (ht.setting o hsetting).trans hr
    have hfilter : ∀ rows : List (OwnedRow K O C),
        rows.filter (fun row => t.setting = some row.owner) = RowChange.ofOwner o rows := by
      intro rows
      refine List.filter_congr fun row _ => ?_
      rw [hsetting, decide_eq_decide, Option.some.injEq]
      exact eq_comm
    rw [visible, visible, hfilter, hfilter]
    exact (RowChange.ofOwner_overlay o t.pending s.rows).symm

theorem begin_view (hr : owner r = A) {c : ℕ} (h : s.begin r c = some t) :
    (view owner A s).begin r c = some t := by
  have hown : (view owner A s).txns r = s.txns r := if_pos hr
  refine begin_eq_some.mpr ?_
  rw [hown]
  refine (begin_eq_some.mp h).imp_right ?_
  rintro ⟨hnone, hfree, rfl⟩
  refine ⟨hnone, ?_, rfl⟩
  change (s.holder c).filter _ = none
  rw [hfree]
  rfl

/-- A key that is not in use, in one's own part. -/
theorem inUse_view {k : K} (h : ¬ s.inUse k = true) : ¬ (view owner A s).inUse k = true := by
  obtain ⟨hrows, hlock⟩ := not_inUse h
  have hlock' : (view owner A s).locks k = none := by
    change (s.locks k).filter _ = none
    rw [hlock]
    rfl
  rw [inUse, hlock']
  simp only [Option.isSome_none, Bool.or_false, List.any_eq_true, decide_eq_true_eq, not_exists,
    not_and]
  exact fun row hrow => hrows row (RowChange.mem_ofOwner.mp hrow).1

theorem locked_view {changes : List (RowChange K O C)}
    (h : ¬ (changes.any fun ch => (s.locks ch.id).any (· ≠ r)) = true) :
    ¬ (changes.any fun ch => ((view owner A s).locks ch.id).any (· ≠ r)) = true := by
  intro hany
  obtain ⟨ch, hch, hlocked⟩ := List.any_eq_true.mp hany
  change ((s.locks ch.id).filter _).any _ = true at hlocked
  rcases not_locked h ch hch with hnone | hsome
  · rw [hnone] at hlocked
    cases hlocked
  · rw [hsome, Option.filter_some] at hlocked
    split at hlocked <;> simp at hlocked

/-- A statement of a client of the owner does in the owner's part what it does in the whole. -/
theorem execute_view (ht : TxnInv owner s r t) (hr : owner r = A) {call : SqlCall K O C}
    (h : s.execute r t call = some s') :
    (view owner A s).execute r t call = some (view owner A s') := by
  cases call with
  | setConfig value isLocal =>
    obtain rfl := Option.some.inj h
    rw [view_answer hr, view_put hr]
    rfl
  | select p =>
    obtain rfl := Option.some.inj h
    rw [view_answer hr, view_put hr, ← visible_view ht hr]
    rfl
  | insert row =>
    simp only [execute] at h ⊢
    split at h
    next => cases h
    next hfresh =>
      rw [if_neg (inUse_view hfresh)]
      split at h
      next hchecks =>
        obtain rfl := Option.some.inj h
        rw [if_pos hchecks, view_answer hr, view_put hr, view_lock hr]
      next hchecks =>
        obtain rfl := Option.some.inj h
        rw [if_neg hchecks, view_answer hr, view_put hr]
  | change f =>
    simp only [execute] at h ⊢
    rw [visible_view ht hr]
    split at h
    next => cases h
    next hfree =>
      rw [if_neg (locked_view hfree)]
      split at h
      next hchecks =>
        obtain rfl := Option.some.inj h
        rw [if_pos hchecks, view_answer hr, view_put hr, view_lock hr]
      next hchecks =>
        obtain rfl := Option.some.inj h
        rw [if_neg hchecks, view_answer hr, view_put hr]
  | commit => cases h
  | rollback => cases h

/-- An owner's client takes the step it takes in the whole. -/
theorem step_view (h : Inv owner s) {a : ClientCall K O C} (ha : owner a.client = A)
    (hs : step s a = some s') : step (view owner A s) a = some (view owner A s') := by
  obtain ⟨r, c, call⟩ := a
  change owner r = A at ha
  have hown : (view owner A s).txns r = s.txns r := if_pos ha
  rcases step_cases r c call with hstatement | rfl | rfl
  · rw [hstatement] at hs ⊢
    obtain ⟨t, ht, hs⟩ := Option.bind_eq_some_iff.mp hs
    rw [begin_view ha ht, Option.bind_some]
    split at hs
    next hfailed =>
      obtain rfl := Option.some.inj hs
      rw [if_pos hfailed, view_answer ha, view_put ha]
    next hfailed =>
      rw [if_neg hfailed]
      exact execute_view (h.begin ht).1 ha hs
  · cases ht : s.txns r with
    | none =>
      simp only [step, ht, hown] at hs ⊢
      obtain rfl := Option.some.inj hs
      rw [view_answer ha]
    | some t =>
      simp only [step, ht, hown] at hs ⊢
      split at hs
      next hfailed =>
        obtain rfl := Option.some.inj hs
        rw [if_pos hfailed, view_answer ha, view_finish ha]
      next hfailed =>
        obtain rfl := Option.some.inj hs
        rw [if_neg hfailed, view_answer ha, view_finish ha, view_apply (h.txns r t ht) ha]
  · cases ht : s.txns r with
    | none =>
      simp only [step, ht, hown] at hs ⊢
      obtain rfl := Option.some.inj hs
      rw [view_answer ha]
    | some t =>
      simp only [step, ht, hown] at hs ⊢
      obtain rfl := Option.some.inj hs
      rw [view_answer ha, view_finish ha]

/-- A step of another owner's client is not seen. -/
theorem step_view_other (h : Inv owner s) {a : ClientCall K O C} (ha : owner a.client ≠ A)
    (hs : step s a = some s') : view owner A s' = view owner A s := by
  obtain ⟨r, c, call⟩ := a
  have hsteps : Steps s r c call s' := steps_of_step hs
  change owner r ≠ A at ha
  cases hsteps with
  | idle _ _ _ => exact view_answer_other ha _
  | @commits t ht _ =>
    rw [view_answer_other ha]
    have happly : view owner A (s.apply t) = view owner A s := view_apply_other h (h.txns r t ht) ha
    have hrows := congrArg SecuredDb.rows happly
    have hsettings := congrArg SecuredDb.settings happly
    have hfinish : view owner A ((s.apply t).finish r t) = view owner A (s.finish r t) :=
      ext_of hrows hsettings rfl rfl rfl rfl
    exact hfinish.trans (view_finish_other h ha ht)
  | drops _ _ _ ht _ => rw [view_answer_other ha, view_finish_other h ha ht]
  | stuck _ hbegin _ => rw [view_answer_other ha, view_put_other ha (h.begin hbegin).2]
  | @executes t _ _ hbegin _ hexec =>
    have hfree := (h.begin hbegin).2
    cases hexec with
    | setConfig value isLocal =>
      rw [view_answer_other ha]
      exact view_put_other ha hfree
    | select p => rw [view_answer_other ha, view_put_other ha hfree]
    | writes _ changes _ hchecks hlocks hrows =>
      rw [view_answer_other ha]
      have hput := view_put_other (s := s.lock r (changes.map RowChange.id))
        (t := { t with pending := t.pending ++ changes }) ha hfree
      refine hput.trans (view_lock_other ha fun k hk => ?_)
      obtain ⟨ch, hch, rfl⟩ := List.mem_map.mp hk
      exact hlocks ch hch
    | refused _ _ =>
      rw [view_answer_other ha]
      exact view_put_other ha hfree

/-- What holds of a server whose calls are scoped holds after a run. -/
theorem Inv.run (h : Inv owner s) {l : List (ClientCall K O C)} (hl : ∀ a ∈ l, Scoped owner a)
    (hrun : runSteps SecuredDb.step s l = some s') : Inv owner s' :=
  runSteps_invariant (fun a ha _ _ hi hs => hi.step (hl a ha) hs) h hrun

/-- Every row that a client is told in a run belongs to its owner. -/
theorem AnswersOwn.run (h : AnswersOwn owner s) (hinv : Inv owner s)
    {l : List (ClientCall K O C)} (hl : ∀ a ∈ l, Scoped owner a)
    (hrun : runSteps SecuredDb.step s l = some s') : AnswersOwn owner s' :=
  (runSteps_invariant (I := fun s => Inv owner s ∧ AnswersOwn owner s)
    (fun a ha _ _ hi hs => ⟨hi.1.step (hl a ha) hs, hi.2.step hi.1 hs⟩) ⟨hinv, h⟩ hrun).2

/-- The calls of a client. -/
def callsOf (r : ℕ) (l : List (ClientCall K O C)) : List (SqlCall K O C) :=
  (l.filter fun a => a.client = r).map ClientCall.call

omit [DecidableEq K] [DecidableEq O] in
theorem mem_callsOf {a : ClientCall K O C} {l : List (ClientCall K O C)} (h : a ∈ l) :
    a.call ∈ callsOf a.client l :=
  List.mem_map_of_mem (List.mem_filter.mpr ⟨h, decide_eq_true rfl⟩)

/-- A client whose transaction has ended. -/
theorem txns_of_end {c : ℕ} {call : SqlCall K O C} (hcall : call = .commit ∨ call = .rollback)
    (hs : SecuredDb.step s ⟨r, c, call⟩ = some s') : s'.txns r = none := by
  cases ht : s.txns r with
  | none =>
    rcases hcall with rfl | rfl <;>
    · simp only [step, ht] at hs
      obtain rfl := Option.some.inj hs
      exact ht
  | some t =>
    rcases hcall with rfl | rfl
    · simp only [step, ht] at hs
      split at hs
      next =>
        obtain rfl := Option.some.inj hs
        exact finish_txns_self (s := s) (t := t)
      next =>
        obtain rfl := Option.some.inj hs
        exact finish_txns_self (s := s.apply t) (t := t)
    · simp only [step, ht] at hs
      obtain rfl := Option.some.inj hs
      exact finish_txns_self (s := s) (t := t)

/-- **Nothing is seen or written** in a run, by a client that does not set its owner. -/
theorem Unbound.run (h : Unbound s r) (hinv : Inv owner s) {l : List (ClientCall K O C)}
    (hl : ∀ a ∈ l, Scoped owner a)
    (hcalls : ∀ call ∈ callsOf r l, ∀ value isLocal, call = .setConfig value isLocal → value = none)
    (hrun : runSteps SecuredDb.step s l = some s') :
    ∃ told, s'.answers r = s.answers r ++ told ∧ List.Forall₂ ToldNothing (callsOf r l) told := by
  induction l generalizing s with
  | nil =>
    cases hrun
    exact ⟨[], (List.append_nil _).symm, .nil⟩
  | cons a l ih =>
    obtain ⟨t, ht, hrest⟩ := runSteps_cons hrun
    have hinv' := hinv.step (hl a List.mem_cons_self) ht
    have hl' := fun b hb => hl b (List.mem_cons_of_mem _ hb)
    by_cases ha : a.client = r
    · have hcons : callsOf r (a :: l) = a.call :: callsOf r l := by
        rw [callsOf, List.filter_cons, if_pos (decide_eq_true ha)]
        rfl
      rw [hcons] at hcalls ⊢
      obtain ⟨q, c, call⟩ := a
      obtain rfl : q = r := ha
      obtain ⟨h', -, told, htold, hnothing⟩ := h.step hinv (hcalls call List.mem_cons_self) ht
      obtain ⟨rest, hanswers, hall⟩ := ih h' hinv' hl'
        (fun call hcall => hcalls call (List.mem_cons_of_mem _ hcall)) hrest
      refine ⟨told :: rest, ?_, .cons hnothing hall⟩
      rw [hanswers, htold, List.append_assoc]
      rfl
    · have hskip : callsOf r (a :: l) = callsOf r l := by
        rw [callsOf, List.filter_cons, if_neg (by simpa using ha)]
        rfl
      rw [hskip] at hcalls ⊢
      obtain ⟨htxns, hanswers⟩ := step_of_ne ht (Ne.symm ha)
      have h' : Unbound t r := fun u hu => h u (htxns ▸ hu)
      obtain ⟨told, htold, hall⟩ := ih h' hinv' hl' hcalls hrest
      exact ⟨told, htold.trans (by rw [hanswers]), hall⟩

/-- **A server of its own**: in a run of scoped calls, in whatever order, an owner's rows, and what
its clients are told, are what they are when nobody else has rows or clients. -/
theorem view_run (h : Inv owner s) {l : List (ClientCall K O C)} (hl : ∀ a ∈ l, Scoped owner a)
    (hrun : runSteps step s l = some s') (A : O) :
    runSteps step (view owner A s) (l.filter fun a => owner a.client = A) =
      some (view owner A s') :=
  runSteps_view (fun _ _ _ ha hi hs => step_view hi ha hs)
    (fun _ _ _ ha hi hs => step_view_other hi ha hs)
    (fun a ha _ _ hi hs => hi.step (hl a ha) hs) h hrun

end SecuredDb

end FinanceIntelligence
