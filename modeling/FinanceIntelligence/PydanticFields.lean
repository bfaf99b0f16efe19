import FinanceIntelligence.JsonText

/-!
# Fields of a validated request

A general layer: a model whose fields are read one by one from a JSON object,
each by a validator of its own, with a default for a field that is absent.

* `Field.read` — **reading one field**: the default where the key is absent, the
  validator's answer where it is there.
* `Literal`, `BoundedInt`, `BoundedList` — what the validators build. A value of
  these types carries the proof that the validator let it pass.
* `extraForbid` — the object has no key but the fields' own.
-/

namespace FinanceIntelligence

/-- A field of a model: its key, its validator and its default, `none` if the
field is required. -/
structure Field (J V : Type) where
  /-- the key in the object -/
  name : String
  /-- the value of the field, if the JSON value is accepted -/
  validate : J → Option V
  /-- what stands for an absent key -/
  default : Option V

namespace Field

variable {J V : Type}

/-- The value of a field of an object. -/
def read (f : Field J V) (fields : List (String × J)) : Option V :=
  match fields.lookup f.name with
  | some v => f.validate v
  | none => f.default

/-- **A key that is there** is what the validator makes of it. -/
theorem read_of_lookup {f : Field J V} {fields : List (String × J)} {v : J}
    (h : fields.lookup f.name = some v) : f.read fields = f.validate v := by
  simp only [read, h]

/-- **A key that is absent** is the default. -/
theorem read_of_absent {f : Field J V} {fields : List (String × J)}
    (h : fields.lookup f.name = none) : f.read fields = f.default := by
  simp only [read, h]

/-- **An optional key** is read as it was written, where the validator accepts what
is there and an absent key is `None`. -/
theorem read_optional {W T : Type} {f : Field J (Option V)} {fields : List (String × J)}
    {o : Option T} {wire : T → J} {g : V → W} {k : T → W}
    (hlookup : fields.lookup f.name = o.map wire) (hdefault : f.default = some none)
    (h : ∀ x ∈ o, ∃ v, f.validate (wire x) = some (some v) ∧ g v = k x) :
    ∃ v, f.read fields = some v ∧ o.map k = v.map g := by
  cases o with
  | none => exact ⟨none, (read_of_absent hlookup).trans hdefault, rfl⟩
  | some x =>
    obtain ⟨v, hv, hg⟩ := h x rfl
    exact ⟨some v, (read_of_lookup hlookup).trans hv, by simp [hg]⟩

end Field

/-- `extra="forbid"`: every key of the object is a field. -/
def extraForbid {J : Type} (names : List String) (fields : List (String × J)) : Bool :=
  fields.all fun field => names.contains field.1

/-- `Literal[…]`: one of the texts of a list. -/
abbrev Literal (options : List String) := {text : String // text ∈ options}

/-- `int` with bounds `ge` and `le`. -/
abbrev BoundedInt (ge : ℤ) (le : Option ℤ) := {n : ℤ // ge ≤ n ∧ ∀ m ∈ le, n ≤ m}

/-- `list[…]` with `min_length` and `max_length`. -/
abbrev BoundedList (α : Type) (min max : ℕ) := {l : List α // min ≤ l.length ∧ l.length ≤ max}

/-- The entries of a map literal some of which are there on a condition only. -/
def presentEntries {J : Type} (entries : List (String × Option J)) : List (String × J) :=
  entries.filterMap fun entry => entry.2.map fun v => (entry.1, v)

section PresentEntries

variable {J : Type} {entries : List (String × Option J)}

theorem lookup_presentEntries_of_notMem {key : String} (h : key ∉ entries.map (·.1)) :
    (presentEntries entries).lookup key = none := by
  rw [List.lookup_eq_none_iff]
  rintro ⟨name, v⟩ hmem
  obtain ⟨⟨name', o⟩, hentry, hv⟩ := List.mem_filterMap.mp hmem
  obtain ⟨v', rfl, hpair⟩ := Option.map_eq_some_iff.mp hv
  obtain ⟨rfl, rfl⟩ := Prod.mk.inj hpair
  have hne : key ≠ name' := fun heq => h (heq ▸ List.mem_map.mpr ⟨_, hentry, rfl⟩)
  simp [hne]

/-- **Looking a key up** among the entries that are there. -/
theorem lookup_presentEntries (h : (entries.map (·.1)).Nodup) (key : String) :
    (presentEntries entries).lookup key = (entries.lookup key).join := by
  induction entries with
  | nil => rfl
  | cons entry entries ih =>
    obtain ⟨name, o⟩ := entry
    rw [List.map_cons, List.nodup_cons] at h
    by_cases hk : key = name
    · subst hk
      cases o with
      | none =>
        have habsent := lookup_presentEntries_of_notMem h.1
        simpa [presentEntries, List.lookup_cons] using habsent
      | some v => simp [presentEntries]
    · have hbeq : (key == name) = false := beq_eq_false_iff_ne.mpr hk
      have hrest := ih h.2
      cases o with
      | none => simpa [presentEntries, List.lookup_cons, hbeq] using hrest
      | some v => simpa [presentEntries, List.lookup_cons, hbeq] using hrest

/-- The entries that are there have known keys if all of them do. -/
theorem extraForbid_presentEntries {names : List String}
    (h : ∀ key ∈ entries.map (·.1), key ∈ names) :
    extraForbid names (presentEntries entries) = true := by
  rw [extraForbid, List.all_eq_true]
  rintro ⟨name, v⟩ hmem
  obtain ⟨⟨name', o⟩, hentry, hv⟩ := List.mem_filterMap.mp hmem
  obtain ⟨v', rfl, hpair⟩ := Option.map_eq_some_iff.mp hv
  obtain ⟨rfl, rfl⟩ := Prod.mk.inj hpair
  exact List.contains_iff_mem.mpr (h name' (List.mem_map.mpr ⟨_, hentry, rfl⟩))

end PresentEntries

/-- What the validation library makes of values that are not of the field's own
type but that it converts. -/
structure LaxRules (D U : Type) where
  /-- a UUID written as text -/
  uuidOfText : String → Option U
  /-- an integer written as text -/
  intOfText : String → Option ℤ
  /-- an integer given as a double -/
  intOfDouble : D → Option ℤ
  /-- a truth value given as something else -/
  boolOf : Json String D → Option Bool

namespace LaxRules

variable {D U α : Type} (rules : LaxRules D U)

/-- A `str` field. -/
def str : Json String D → Option String
  | .str s => some s
  | _ => none

/-- A `Literal` field. -/
def literal (options : List String) : Json String D → Option (Literal options)
  | .str s => if h : s ∈ options then some ⟨s, h⟩ else none
  | _ => none

/-- A `UUID` field. -/
def uuid : Json String D → Option U
  | .str s => rules.uuidOfText s
  | _ => none

/-- The integer of an `int` field. -/
def int : Json String D → Option ℤ
  | .int n => some n
  | .bool b => some (if b then 1 else 0)
  | .double x => rules.intOfDouble x
  | .str s => rules.intOfText s
  | _ => none

/-- A `bool` field. -/
def bool : Json String D → Option Bool
  | .bool b => some b
  | j => rules.boolOf j

/-- An `int` field with bounds. -/
def boundedInt (ge : ℤ) (le : Option ℤ) (j : Json String D) : Option (BoundedInt ge le) :=
  (rules.int j).bind fun n => if h : ge ≤ n ∧ ∀ m ∈ le, n ≤ m then some ⟨n, h⟩ else none

/-- A field of type `… | None`. -/
def nullable (validate : Json String D → Option α) : Json String D → Option (Option α)
  | .null => some none
  | j => (validate j).map some

/-- A list field with bounds on its length. -/
def boundedList (min max : ℕ) (item : Json String D → Option α) :
    Json String D → Option (BoundedList α min max)
  | .arr l => (l.mapM item).bind fun values =>
      if h : min ≤ values.length ∧ values.length ≤ max then some ⟨values, h⟩ else none
  | _ => none

/-! ### What an accepted value is -/

variable {rules}

/-- An accepted text is one of the options. -/
theorem literal_eq_some {options : List String} {s : String} {v : Literal options}
    (h : literal options (.str s : Json String D) = some v) : v.val = s := by
  simp only [literal] at h
  split at h
  · rw [← Option.some.inj h]
  · cases h

/-- An accepted integer is the one that was sent. -/
theorem boundedInt_eq_some {ge : ℤ} {le : Option ℤ} {n : ℤ} {v : BoundedInt ge le}
    (h : rules.boundedInt ge le (.int n) = some v) : v.val = n := by
  simp only [boundedInt, int, Option.bind_some] at h
  split at h
  · rw [← Option.some.inj h]
  · cases h

/-- A value that is there is validated. -/
theorem nullable_of_ne {validate : Json String D → Option α} {j : Json String D}
    (hj : j ≠ .null) : nullable validate j = (validate j).map some := by
  cases j with
  | null => exact absurd rfl hj
  | _ => rfl

/-- The members of an accepted list are what the items are. -/
theorem boundedList_eq_some {min max : ℕ} {item : Json String D → Option α}
    {l : List (Json String D)} {v : BoundedList α min max}
    (h : boundedList min max item (.arr l) = some v) : l.mapM item = some v.val := by
  obtain ⟨values, hvalues, h⟩ := Option.bind_eq_some_iff.mp h
  split at h
  · rw [hvalues, ← Option.some.inj h]
  · cases h

end LaxRules

end FinanceIntelligence
