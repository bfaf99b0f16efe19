import Mathlib.Data.Int.Notation
import Mathlib.Data.List.Basic
import Mathlib.Data.Nat.Notation
import Mathlib.Logic.Function.Basic

/-!
# Statements on one table

A small part of SQL: tables with columns, `NOT NULL` and `CHECK` constraints,
conditions in three-valued logic, `SELECT … FOR UPDATE SKIP LOCKED LIMIT` and
`UPDATE`. The names in a statement are looked up before anything is executed, so
that a name that is not there is an error on every content of the table.
-/

namespace FinanceIntelligence

/-! ## Values, rows and conditions -/

/-- A value of a column. -/
inductive SqlValue where
  | null
  | text (s : String)
  | number (n : ℤ)
  | uuid (u : BitVec 128)
deriving DecidableEq

/-- A row, by the names of the columns. -/
abbrev SqlRow := String → SqlValue

/-- A scalar expression. -/
inductive SqlExpr where
  | column (name : String)
  | value (v : SqlValue)

/-- A condition. -/
inductive SqlCond where
  | eq (a b : SqlExpr)
  | lt (a b : SqlExpr)
  | le (a b : SqlExpr)
  | isIn (a : SqlExpr) (l : List SqlValue)
  | and (p q : SqlCond)

/-- The value of an expression in a row. -/
def SqlExpr.eval (r : SqlRow) : SqlExpr → SqlValue
  | column name => r name
  | value v => v

/-- The columns that an expression names. -/
def SqlExpr.columns : SqlExpr → List String
  | column name => [name]
  | value _ => []

namespace SqlCond

/-- Compare two numbers; unknown if one is `NULL`. -/
def compare (p : ℤ → ℤ → Bool) : SqlValue → SqlValue → Option Bool
  | .number m, .number n => some (p m n)
  | _, _ => none

/-- The truth of a condition in a row; `none` is unknown. -/
def eval (r : SqlRow) : SqlCond → Option Bool
  | eq a b =>
    if a.eval r = .null ∨ b.eval r = .null then none else some (a.eval r == b.eval r)
  | lt a b => compare (fun m n => m < n) (a.eval r) (b.eval r)
  | le a b => compare (fun m n => m ≤ n) (a.eval r) (b.eval r)
  | isIn a l => if a.eval r = .null then none else some (l.contains (a.eval r))
  | and p q =>
    match p.eval r, q.eval r with
    | some false, _ | _, some false => some false
    | some true, some true => some true
    | _, _ => none

/-- The columns that a condition names. -/
def columns : SqlCond → List String
  | eq a b | lt a b | le a b => a.columns ++ b.columns
  | isIn a _ => a.columns
  | and p q => p.columns ++ q.columns

/-- A row passes `WHERE` if the condition is true. -/
def holds (p : SqlCond) (r : SqlRow) : Bool := p.eval r == some true

/-- A row passes `CHECK` unless the condition is false. -/
def allows (p : SqlCond) (r : SqlRow) : Bool := p.eval r != some false

variable {p q : SqlCond} {r : SqlRow} {a b : SqlExpr}

@[simp] theorem holds_and : (and p q).holds r = (p.holds r && q.holds r) := by
  simp only [holds, eval]
  rcases p.eval r with _ | _ | _ <;> rcases q.eval r with _ | _ | _ <;> rfl

theorem holds_eq_iff : (eq a b).holds r = true ↔ a.eval r = b.eval r ∧ a.eval r ≠ .null := by
  simp only [holds, eval, beq_iff_eq]
  split
  · rename_i h
    refine ⟨fun h => (nomatch h), fun ⟨hab, hne⟩ => ?_⟩
    rcases h with h | h
    · exact absurd h hne
    · exact absurd (hab.trans h) hne
  · rename_i h
    simp only [not_or] at h
    simp [h.1]

theorem holds_lt_iff :
    (lt a b).holds r = true ↔ ∃ m n, a.eval r = .number m ∧ b.eval r = .number n ∧ m < n := by
  simp only [holds, eval, beq_iff_eq]
  constructor
  · intro h
    unfold compare at h
    split at h
    · rename_i m n hm hn
      exact ⟨m, n, hm, hn, by simpa using h⟩
    · cases h
  · rintro ⟨m, n, hm, hn, hlt⟩
    rw [hm, hn]
    simpa [compare] using hlt

end SqlCond

/-! ## Tables -/

/-- A table, as `CREATE TABLE` and `ALTER TABLE` make it. -/
structure SqlTable where
  /-- the names of the columns -/
  columns : List String
  /-- the columns that are `NOT NULL` -/
  notNull : List String
  /-- the `CHECK` constraints, by name -/
  checks : List (String × SqlCond) := []

/-- Why a statement fails. -/
inductive SqlError where
  /-- `column does not exist` -/
  | undefinedColumn (name : String)
  /-- `null value in column` -/
  | notNullViolation (name : String)
  /-- `new row violates check constraint` -/
  | checkViolation (name : String)
deriving DecidableEq

namespace SqlTable

variable (t : SqlTable)

/-- `ALTER TABLE … ADD COLUMN`, without a constraint. -/
def addColumn (name : String) : SqlTable := { t with columns := t.columns ++ [name] }

/-- `ALTER TABLE … ADD COLUMN … NOT NULL`. -/
def addColumnNotNull (name : String) : SqlTable :=
  { t.addColumn name with notNull := t.notNull ++ [name] }

/-- `ALTER TABLE … ADD CONSTRAINT … CHECK`. -/
def addCheck (name : String) (p : SqlCond) : SqlTable :=
  { t with checks := t.checks ++ [(name, p)] }

/-- Every name is a column of the table. -/
def resolve (names : List String) : Except SqlError Unit :=
  match names.find? fun name => !t.columns.contains name with
  | some name => .error (.undefinedColumn name)
  | none => .ok ()

/-- The constraint that a row violates. -/
def violation (r : SqlRow) : Option SqlError :=
  match t.notNull.find? fun name => r name == .null with
  | some name => some (.notNullViolation name)
  | none => (t.checks.find? fun c => !c.2.allows r).map fun c => .checkViolation c.1

/-- `SELECT cols FROM t WHERE p FOR UPDATE SKIP LOCKED LIMIT n`, on the rows in the
order of a scan. -/
def selectForUpdateSkipLocked (cols : List String) (p : SqlCond) (limit : ℕ)
    (locked : SqlRow → Bool) (rows : List SqlRow) : Except SqlError (List SqlRow) := do
  t.resolve (cols ++ p.columns)
  return ((rows.filter p.holds).filter fun r => !locked r).take limit

/-- The row with new values in some columns. -/
def assign (set : List (String × SqlExpr)) (r : SqlRow) : SqlRow :=
  set.foldl (fun r' x => Function.update r' x.1 (x.2.eval r)) r

/-- Change the rows that meet a condition; each must pass the constraints. -/
def updateRows (set : List (String × SqlExpr)) (p : SqlRow → Bool) :
    List SqlRow → Except SqlError (List SqlRow)
  | [] => .ok []
  | r :: rest =>
    if p r then
      match t.violation (assign set r) with
      | some e => .error e
      | none => (updateRows set p rest).map (assign set r :: ·)
    else (updateRows set p rest).map (r :: ·)

/-- `UPDATE t SET set WHERE p`. -/
def update (set : List (String × SqlExpr)) (p : SqlCond) (rows : List SqlRow) :
    Except SqlError (List SqlRow) := do
  t.resolve (p.columns ++ set.map (·.1) ++ set.flatMap (·.2.columns))
  t.updateRows set p.holds rows

variable {t} {names cols : List String} {set : List (String × SqlExpr)} {p : SqlRow → Bool}
  {rows : List SqlRow} {r : SqlRow} {e : SqlError}

/-- A row meets the constraints. -/
theorem violation_eq_none_iff : t.violation r = none ↔
    (∀ name ∈ t.notNull, r name ≠ .null) ∧ ∀ c ∈ t.checks, c.2.allows r = true := by
  unfold violation
  split
  · rename_i name h
    refine ⟨fun h' => (nomatch h'), fun ⟨hn, _⟩ => ?_⟩
    have hnull := List.find?_some h
    exact absurd (eq_of_beq hnull) (hn name (List.mem_of_find?_eq_some h))
  · rename_i h
    have hn : ∀ name ∈ t.notNull, r name ≠ .null := by simpa [List.find?_eq_none] using h
    rw [and_iff_right hn]
    simp [List.find?_eq_none]

/-- Other columns keep their values. -/
theorem assign_of_notMem {name : String} (h : name ∉ set.map (·.1)) :
    assign set r name = r name := by
  have hfold : ∀ (l : List (String × SqlExpr)) (r' : SqlRow), name ∉ l.map (·.1) →
      l.foldl (fun r' x => Function.update r' x.1 (x.2.eval r)) r' name = r' name := by
    intro l
    induction l with
    | nil => exact fun _ _ => rfl
    | cons x l ih =>
      intro r' hl
      rw [List.map_cons, List.mem_cons, not_or] at hl
      rw [List.foldl_cons, ih _ hl.2, Function.update_of_ne hl.1]
  exact hfold set r h

/-- A name that is no column is an error. -/
theorem resolve_eq_error {name : String}
    (h : (names.find? fun name => !t.columns.contains name) = some name) :
    t.resolve names = .error (.undefinedColumn name) := by
  rw [resolve, h]

theorem resolve_eq_ok (h : ∀ name ∈ names, name ∈ t.columns) : t.resolve names = .ok () := by
  have hnone : (names.find? fun name => !t.columns.contains name) = none := by
    simpa [List.find?_eq_none] using h
  rw [resolve, hnone]

/-- An update whose new rows pass the constraints goes through. -/
theorem updateRows_eq_ok (h : ∀ r ∈ rows, p r = true → t.violation (assign set r) = none) :
    t.updateRows set p rows = .ok (rows.map fun r => if p r then assign set r else r) := by
  induction rows with
  | nil => rfl
  | cons r rest ih =>
    have hrest := ih fun r' hr' => h r' (List.mem_cons_of_mem _ hr')
    rw [updateRows, hrest]
    by_cases hp : p r = true
    · rw [if_pos hp, h r List.mem_cons_self hp]
      simp [Except.map, hp]
    · rw [if_neg hp]
      simp [Except.map, hp]

/-- An update whose new rows all violate the same constraint fails, if there is
one. -/
theorem updateRows_eq_error (hex : ∃ r ∈ rows, p r = true)
    (h : ∀ r ∈ rows, p r = true → t.violation (assign set r) = some e) :
    t.updateRows set p rows = .error e := by
  induction rows with
  | nil =>
    obtain ⟨r, hr, -⟩ := hex
    cases hr
  | cons r rest ih =>
    rw [updateRows]
    by_cases hp : p r = true
    · rw [if_pos hp, h r List.mem_cons_self hp]
    · obtain ⟨r', hr', hp'⟩ := hex
      have hmem : r' ∈ rest := by
        rcases List.mem_cons.mp hr' with rfl | hmem
        · exact absurd hp' hp
        · exact hmem
      rw [if_neg hp, ih ⟨r', hmem, hp'⟩ fun q hq => h q (List.mem_cons_of_mem _ hq)]
      rfl

end SqlTable

end FinanceIntelligence
