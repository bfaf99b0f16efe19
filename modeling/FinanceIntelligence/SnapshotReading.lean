import FinanceIntelligence.CommandEnvelope
import FinanceIntelligence.ComparisonSnapshots

/-!
# Reading a snapshot back

What a model has printed it reads back as it was, as long as the identifiers are read back.

* `LaxRules.ReadsUuids` — the identifiers are.
* `DatasetRow.modelValidate_dump`, `ChartSpec.modelValidate_dump` — **rows and charts**.
* `QuerySnapshot.modelValidate_dump`, `DataQualitySummary.modelValidate_dump` — **the rest**.
-/

namespace FinanceIntelligence

/-- `UUID(str(id)) == id`. -/
def LaxRules.ReadsUuids (rules : LaxRules PyFloat Uuid) : Prop :=
  ∀ id, rules.uuidOfText (uuidText id) = some id

/-- Every member is read back. -/
theorem mapM_map_of_forall {α β : Type} {f : β → Option α} {dump : α → β} {l : List α}
    (h : ∀ a ∈ l, f (dump a) = some a) : (l.map dump).mapM f = some l := by
  induction l with
  | nil => rfl
  | cons a l ih =>
    rw [List.map_cons, List.mapM_cons, h a List.mem_cons_self,
      ih fun b hb => h b (List.mem_cons_of_mem _ hb)]
    rfl

/-! ## Fields -/

section Fields

variable {D α : Type}

/-- An optional value is read back. -/
theorem LaxRules.nullable_dumpOption {validate : Json String D → Option α}
    {dump : α → Json String D} {o : Option α}
    (h : ∀ a ∈ o, validate (dump a) = some a ∧ dump a ≠ .null) :
    LaxRules.nullable validate (dumpOption dump o) = some o := by
  cases o with
  | none => rfl
  | some a =>
    obtain ⟨ha, hne⟩ := h a rfl
    rw [dumpOption, LaxRules.nullable_of_ne hne, ha]
    rfl

/-- A list is read back. -/
theorem LaxRules.list_dumpList {item : Json String D → Option α} {dump : α → Json String D}
    {l : List α} (h : ∀ a ∈ l, item (dump a) = some a) :
    LaxRules.list item (dumpList dump l) = some l :=
  mapM_map_of_forall h

/-- A dictionary is read back. -/
theorem LaxRules.dict_dumpDict {item : Json String D → Option α} {dump : α → Json String D}
    {l : List (String × α)} (h : ∀ entry ∈ l, item (dump entry.2) = some entry.2) :
    LaxRules.dict item (dumpDict dump l) = some l := by
  refine mapM_map_of_forall fun entry hentry => ?_
  rw [h entry hentry]
  rfl

/-- A text is read back. -/
@[simp]
theorem LaxRules.str_str (s : String) : LaxRules.str (.str s : Json String D) = some s := rfl

/-- An optional text is read back. -/
@[simp]
theorem LaxRules.nullable_str (o : Option String) :
    LaxRules.nullable LaxRules.str (dumpOption .str o : Json String D) = some o :=
  nullable_dumpOption fun _ _ => ⟨rfl, nofun⟩

/-- A list of texts is read back. -/
@[simp]
theorem LaxRules.list_str (l : List String) :
    LaxRules.list LaxRules.str (dumpList .str l : Json String D) = some l :=
  list_dumpList fun _ _ => rfl

/-- One of the options is read back. -/
@[simp]
theorem LaxRules.literal_val {options : List String} (s : Literal options) :
    LaxRules.literal options (.str s.val : Json String D) = some s := by
  rw [LaxRules.literal, dif_pos s.property]

/-- A text that may be there, from the options. -/
@[simp]
theorem LaxRules.nullable_literal {options : List String} (o : Option (Literal options)) :
    LaxRules.nullable (LaxRules.literal options)
      (dumpOption (fun s => .str s.val) o : Json String D) = some o :=
  nullable_dumpOption fun s _ => ⟨literal_val s, nofun⟩

end Fields

/-- An origin is read back. -/
@[simp]
theorem validateOrigin_text (o : ValueOrigin) : validateOrigin (.str o.text) = some o := by
  cases o <;> decide

section Models

variable {rules : LaxRules PyFloat Uuid}

@[simp]
theorem LaxRules.bool_bool (b : Bool) : rules.bool (.bool b) = some b := rfl

@[simp]
theorem LaxRules.int_int (n : ℤ) : rules.int (.int n) = some n := rfl

@[simp]
theorem LaxRules.nullable_int (o : Option ℤ) :
    LaxRules.nullable rules.int (dumpOption .int o) = some o :=
  nullable_dumpOption fun _ _ => ⟨rfl, nofun⟩

/-- An identifier is read back. -/
theorem LaxRules.uuid_dumpUuid (hrules : rules.ReadsUuids) (id : Uuid) :
    rules.uuid (dumpUuid id) = some id :=
  hrules id

theorem LaxRules.nullable_uuid (hrules : rules.ReadsUuids) (o : Option Uuid) :
    LaxRules.nullable rules.uuid (dumpOption dumpUuid o) = some o :=
  nullable_dumpOption fun id _ => ⟨uuid_dumpUuid hrules id, nofun⟩

theorem LaxRules.list_uuid (hrules : rules.ReadsUuids) (l : List Uuid) :
    LaxRules.list rules.uuid (dumpList dumpUuid l) = some l :=
  list_dumpList fun id _ => uuid_dumpUuid hrules id

/-! ## Rows -/

/-- **A cell** is read back. -/
theorem DatasetRowCell.modelValidate_dump (hrules : rules.ReadsUuids) (c : DatasetRowCell) :
    DatasetRowCell.modelValidate rules c.dump = some c := by
  simp [DatasetRowCell.modelValidate, DatasetRowCell.dump, extraForbid, requiredField,
    defaultField, Field.read, List.lookup_cons, LaxRules.nullable_uuid hrules]

/-- **A row** is read back. -/
theorem DatasetRow.modelValidate_dump (hrules : rules.ReadsUuids) (r : DatasetRow) :
    DatasetRow.modelValidate rules r.dump = some r := by
  have hcells : LaxRules.dict (DatasetRowCell.modelValidate rules)
      (dumpDict DatasetRowCell.dump r.cells) = some r.cells :=
    LaxRules.dict_dumpDict fun entry _ => DatasetRowCell.modelValidate_dump hrules entry.2
  simp [DatasetRow.modelValidate, DatasetRow.dump, extraForbid, requiredField, Field.read,
    List.lookup_cons, LaxRules.uuid_dumpUuid hrules, hcells]

/-! ## Measures, query and quality -/

/-- **A measure** is read back. -/
theorem MeasureItem.modelValidate_dump (m : MeasureItem) :
    MeasureItem.modelValidate m.dump = some m := by
  simp [MeasureItem.modelValidate, MeasureItem.dump, extraForbid, requiredField, defaultField,
    Field.read, List.lookup_cons]

/-- **The query** is read back. -/
theorem QuerySnapshot.modelValidate_dump (hrules : rules.ReadsUuids) (q : QuerySnapshot) :
    QuerySnapshot.modelValidate rules q.dump = some q := by
  have hmeasures : LaxRules.list (LaxRules.dict LaxRules.str)
      (dumpList (dumpDict .str) q.semanticMeasures : SnapshotJson) = some q.semanticMeasures :=
    LaxRules.list_dumpList fun _ _ => LaxRules.dict_dumpDict fun _ _ => rfl
  simp [QuerySnapshot.modelValidate, QuerySnapshot.dump, extraForbid, requiredField, defaultField,
    Field.read, List.lookup_cons, LaxRules.list_uuid hrules, hmeasures]

/-- **The summary** is read back if its cells add up. -/
theorem DataQualitySummary.modelValidate_dump {q : DataQualitySummary}
    (hsum : q.expectedCells = q.sumCells) :
    DataQualitySummary.modelValidate rules q.dump = some q := by
  simpa [DataQualitySummary.modelValidate, DataQualitySummary.dump, extraForbid, requiredField,
    Field.read, List.lookup_cons] using hsum

/-! ## Charts -/

/-- **A point** is read back. -/
theorem ChartSeriesItem.modelValidate_dump (hrules : rules.ReadsUuids) (p : ChartSeriesItem) :
    ChartSeriesItem.modelValidate rules p.dump = some p := by
  simp [ChartSeriesItem.modelValidate, ChartSeriesItem.dump, extraForbid, requiredField,
    defaultField, Field.read, List.lookup_cons, LaxRules.nullable_uuid hrules]

/-- **A series** is read back. -/
theorem ChartSeries.modelValidate_dump (hrules : rules.ReadsUuids) (s : ChartSeries) :
    ChartSeries.modelValidate rules s.dump = some s := by
  have hpoints : LaxRules.list (ChartSeriesItem.modelValidate rules)
      (dumpList ChartSeriesItem.dump s.dataPoints) = some s.dataPoints :=
    LaxRules.list_dumpList fun p _ => ChartSeriesItem.modelValidate_dump hrules p
  simp [ChartSeries.modelValidate, ChartSeries.dump, extraForbid, requiredField, defaultField,
    Field.read, List.lookup_cons, hpoints]

/-- **A chart** is read back. -/
theorem ChartSpec.modelValidate_dump (hrules : rules.ReadsUuids) (c : ChartSpec) :
    ChartSpec.modelValidate rules c.dump = some c := by
  have hseries : LaxRules.list (ChartSeries.modelValidate rules)
      (dumpList ChartSeries.dump c.series) = some c.series :=
    LaxRules.list_dumpList fun s _ => ChartSeries.modelValidate_dump hrules s
  simp [ChartSpec.modelValidate, ChartSpec.dump, extraForbid, requiredField, defaultField,
    Field.read, List.lookup_cons, LaxRules.uuid_dumpUuid hrules, hseries]

/-! ## The table -/

/-- **A cell of the dataset is no cell of the table**: it has other fields. -/
theorem TableCell.modelValidate_dump (c : DatasetRowCell) :
    TableCell.modelValidate rules c.dump = none := by
  simp [TableCell.modelValidate, DatasetRowCell.dump, extraForbid]

/-- **A row of the table is refused** if it has a cell. -/
theorem TableRow.modelValidate_tableSpecRow {r : DatasetRow} (hcells : r.cells ≠ []) :
    TableRow.modelValidate rules (ComparisonService.tableSpecRow r) = none := by
  obtain ⟨entry, cells, hr⟩ := List.exists_cons_of_ne_nil hcells
  have hdict : LaxRules.dict (TableCell.modelValidate rules)
      (dumpDict DatasetRowCell.dump r.cells) = none := by
    rw [hr, dumpDict, List.map_cons, LaxRules.dict, List.mapM_cons, TableCell.modelValidate_dump]
    rfl
  simp [TableRow.modelValidate, ComparisonService.tableSpecRow, requiredField, Field.read,
    List.lookup_cons, hdict]

end Models

/-! ## Identifiers -/

/-- The value of a hexadecimal digit. -/
def hexDigitValue (c : Char) : ℕ := (List.range 16).findIdx (Nat.digitChar · == c)

/-- `UUID(text)`, of the text that `str` gives. -/
def uuidOfHex (text : String) : Option Uuid :=
  let digits := text.toList.filter (· != '-')
  let id : Uuid := BitVec.ofNat 128 (digits.foldl (fun n c => 16 * n + hexDigitValue c) 0)
  if uuidText id = text then some id else none

/-- Rules that convert nothing but identifiers. -/
def hexRules : LaxRules PyFloat Uuid := ⟨uuidOfHex, fun _ => none, fun _ => none, fun _ => none⟩

/-- The digits give the number back. -/
theorem foldl_padded {w n : ℕ} (hn : n < 16 ^ w) :
    (padded 16 Nat.digitChar w n).foldl (fun n c => 16 * n + hexDigitValue c) 0 = n := by
  induction w generalizing n with
  | zero =>
    rw [Nat.pow_zero] at hn
    rw [padded, List.foldl_nil]
    omega
  | succ w ih =>
    have hdigit : ∀ k < 16, hexDigitValue (Nat.digitChar k) = k := by decide
    have hinit : n / 16 < 16 ^ w := by
      rw [Nat.pow_succ] at hn
      omega
    rw [padded, List.foldl_append, ih hinit, List.foldl_cons, List.foldl_nil,
      hdigit _ (Nat.mod_lt _ (by decide))]
    omega

/-- The digits of the text of an identifier. -/
theorem filter_uuidText (id : Uuid) :
    (uuidText id).toList.filter (· != '-') = padded 16 Nat.digitChar 32 id.toNat := by
  rw [← map_range_digits, uuidText, String.toList_ofList]
  set digits := (List.range 32).map fun i => Nat.digitChar (id.toNat / 16 ^ (32 - 1 - i) % 16)
  have hplain : ∀ k < 16, (Nat.digitChar k != '-') = true := by decide
  have hkept (l : List Char) (hl : l ⊆ digits) : l.filter (· != '-') = l := by
    refine List.filter_eq_self.mpr fun c hc => ?_
    obtain ⟨i, -, rfl⟩ := List.mem_map.mp (hl hc)
    exact hplain _ (Nat.mod_lt _ (by decide))
  have htake (n k : ℕ) : ((digits.drop n).take k) ⊆ digits :=
    fun _ hc => List.drop_subset _ _ (List.take_subset _ _ hc)
  have hdash (l : List Char) : ('-' :: l).filter (· != '-') = l.filter (· != '-') := rfl
  simp only [List.filter_append, hdash]
  rw [hkept _ (List.take_subset _ _), hkept _ (htake _ _), hkept _ (htake _ _),
    hkept _ (htake _ _), hkept _ (List.drop_subset _ _)]
  exact append_groups digits

/-- **An identifier is read back.** -/
theorem readsUuids_hexRules : hexRules.ReadsUuids := by
  intro id
  have hlt : id.toNat < 16 ^ 32 := by
    have := id.isLt
    omega
  change uuidOfHex (uuidText id) = some id
  rw [uuidOfHex, filter_uuidText, foldl_padded hlt]
  simp

end FinanceIntelligence
